import Karajan.Bundles.Store
import Karajan.Lib.Runs

/-!
# Structural edits

A table edit is arithmetic on the declared workflow: no model, no network and
no shell. The workflow was compiled before it is edited, so its steps are
mappings with distinct text identities and a step is known by its identity.
-/

namespace Karajan.Bundles

open Check
open Compiler (Diagnostic WorkflowError located ofMap)
open Scheduling (sorted)

def editOperations : List String :=
  ["set_dependency", "remove_dependency", "set_role", "set_required", "add_step", "remove_step",
    "set_step_input"]

def editFields : List String :=
  ["operation", "step_id", "depends_on", "role", "required", "name", "value", "execution_kind",
    "output_contract", "inputs", "condition", "join"]

def editInvalid (pointer detail : String) : Failure :=
  refuseAt "WORKFLOW_EDIT_INVALID" s!"{workflowPath}{pointer}" detail

def editInvalidAt (step_id field detail : String) : Failure :=
  .refused ⟨"WORKFLOW_EDIT_INVALID", [located "WORKFLOW_EDIT_INVALID"
    s!"{workflowPath}#/edits/id={step_id}/{field}" detail (some step_id)], []⟩ none

def stepRefused (code step_id detail : String) : Failure :=
  .refused ⟨code, [located code s!"{workflowPath}#/steps/id={step_id}" detail (some step_id)], []⟩
    none

-- Reading the edits of a request

def checkEdit (entry : Yaml) (index : Nat) : Chk Mapping := do
  let entry ← need entry.map? (editInvalid s!"#/edits/{index}" "shape")
  let unknown := sorted ((entry.filterMap fun e => e.1.text?).filter fun name =>
    !editFields.contains name)
  refuseEach "WORKFLOW_EDIT_INVALID" (unknown.map fun name =>
    located "WORKFLOW_EDIT_INVALID" s!"{workflowPath}#/edits/{index}/id={name}"
      "unknown edit field" none)
  ensure (entry.get "operation").hashable .exception
  ensure ((entry.get "operation").text?.any editOperations.contains)
    (refuseAt "WORKFLOW_EDIT_UNSUPPORTED" s!"{workflowPath}#/edits/{index}/operation"
      "unsupported edit operation")
  ensure ((entry.get "step_id").text?.any fun step_id => step_id ≠ "")
    (editInvalid s!"#/edits/{index}/step_id" "a step identity is required")
  return entry

def requestedEdits (payload : Mapping) : Chk (List Mapping) := do
  let refusal := editInvalid "" "edits are required"
  let declared ← need (payload.get "edits").list? refusal
  ensure (!declared.isEmpty && declared.length ≤ 256) refusal
  each (fun (entry, index) => checkEdit entry index) declared.zipIdx

-- Applying them

/-- The steps as they are edited so far, and the identities among them. -/
structure Draft where
  steps : List Mapping
  known : List String
  applied : List Yaml

def editText (value : Yaml) (field : String) : Chk String := do
  let refusal := editInvalid s!"#/edits/{field}" "a bounded text value is required"
  let s ← need value.text? refusal
  ensure (1 ≤ s.length && s.length ≤ 96) refusal
  return s

def setField (step : Mapping) (name : String) (value : Yaml) : Mapping := Dict.write (.text name) value step

def optionalStepFields : List String := ["role", "inputs", "depends_on", "required", "condition", "join"]

def newStep (entry : Mapping) (step_id : String) : Chk Mapping := do
  let _ ← each (fun field => ensure (entry.get field).text?.isSome
    (editInvalidAt step_id field "a new step declares its kind and output contract"))
    ["execution_kind", "output_contract"]
  return [(.text "id", .text step_id), (.text "execution_kind", entry.get "execution_kind"),
      (.text "output_contract", entry.get "output_contract")] ++
    optionalStepFields.filterMap fun field => (entry.find field).map fun value => (.text field, value)

variable (L : Library)

def declaredDependencies (step : Mapping) : Chk (List String) := do
  let declared ← need (step.getD "depends_on" (.list [])).list? .exception
  return declared.map L.str

/-- The inputs of a step with one of them set, in the order of their names. -/
def setInput (step : Mapping) (name : String) (value : Yaml) : Chk Mapping := do
  let inputs ← need (step.getD "inputs" (.map [])).map? .exception
  let inputs := setField inputs name value
  -- names of different types have no order
  ensure (inputs.all fun e => e.1.text?.isSome) .exception
  return setField step "inputs" (.map (inputs.insertionSort fun a b =>
    a.1.text?.getD "" ≤ b.1.text?.getD ""))

def editStep (entry : Mapping) (operation step_id : String) (step : Mapping) : Chk Mapping := do
  match operation with
  | "set_dependency" =>
    let dependency ← editText (entry.get "depends_on") "depends_on"
    let current ← declaredDependencies L step
    let current := if current.contains dependency then current else current ++ [dependency]
    return setField step "depends_on" (.ofTexts (sorted current))
  | "remove_dependency" =>
    let dependency ← editText (entry.get "depends_on") "depends_on"
    let current ← declaredDependencies L step
    return setField step "depends_on" (.ofTexts (sorted (current.filter (· ≠ dependency))))
  | "set_role" =>
    let role ← editText (entry.get "role") "role"
    return setField step "role" (.text role)
  | "set_required" =>
    match entry.get "required" with
    | .bool required => return setField step "required" (.bool required)
    | _ => .error (editInvalidAt step_id "required" "required must be a boolean")
  | "set_step_input" =>
    let name ← editText (entry.get "name") "name"
    let value ← need (entry.find "value") (editInvalidAt step_id "value" "a value is required")
    setInput step name value
  | _ => return step

def isStep (step_id : String) (step : Mapping) : Bool := (step.get "id").text? = some step_id

def applyEdit (draft : Draft) (entry : Mapping) : Chk Draft := do
  let operation := L.str (entry.get "operation")
  let step_id := L.str (entry.get "step_id")
  let applied := draft.applied ++ [ofMap [("operation", .text operation), ("step_id", .text step_id)]]
  if operation = "add_step" then
    ensure (!draft.known.contains step_id)
      (stepRefused "WORKFLOW_STEP_ID_DUPLICATE" step_id "step identity already exists")
    let step ← newStep entry step_id
    return ⟨draft.steps ++ [step], draft.known ++ [step_id], applied⟩
  else
    ensure (draft.known.contains step_id)
      (stepRefused "WORKFLOW_STEP_NOT_FOUND" step_id "the edited step is not defined")
    if operation = "remove_step" then
      return ⟨draft.steps.filter fun step => !isStep step_id step, draft.known.filter (· ≠ step_id), applied⟩
    else
      let steps ← each (fun step =>
        if isStep step_id step then editStep L entry operation step_id step else .ok step)
        draft.steps
      return { draft with steps, applied }

def applyEdits (workflow : Yaml) (edits : List Mapping) : Chk (Yaml × Yaml) := do
  let required := refuseAt "WORKFLOW_SCHEMA_INVALID" workflowPath "steps are required"
  let workflow ← need workflow.map? required
  let declared ← need (workflow.get "steps").list? required
  let steps ← each (fun step => need step.map? .exception) declared
  let draft ← edits.foldlM (applyEdit L)
    ⟨steps, steps.map fun step => L.str (step.get "id"), []⟩
  return (.map (setField workflow "steps" (.list (draft.steps.map .map))), .list draft.applied)

/-- A document as text; what the reader would refuse is not written. -/
def dump (document : Yaml) : Chk String := do
  let text ← need (L.safeDump document) (refuse "WORKFLOW_YAML_UNSAFE")
  let _ ← fromCatalog (L.loadYaml text workflowPath)
  return String.ofList (text.toList.reverse.dropWhile (· = '\n')).reverse

end Karajan.Bundles

-- Publishing

namespace Karajan.Bundles

open Check
open Compiler (Diagnostic WorkflowError located ofMap CompiledWorkflow)
open Scheduling (sorted sortedSet)

structure Publication where
  conversation_id : String
  revision : Nat
  files : Files
  delivery_kind : String
  compiled : CompiledWorkflow
  (principal command_key request_digest : String)
  expected_revision : Option Nat
  /-- The fields that the command adds to what its caller sees. -/
  finalize : List (String × Yaml)

/-- Where a process stops: with a part of the staging directory written, or after the
rename and before its transaction is committed. -/
inductive Fault
  | staging (name : String) (partly : Tree)
  | later

variable (L : Library) (I : Identity) (w : World)

-- The directory

def writeTree (files : Files) (rendered : Bytes) : Tree :=
  (files.mapValues fun _ raw => Node.file raw).put manifestPath (.file rendered)

/-- An orphan directory is adopted where it holds exactly these files. -/
def reconcileMaterialized (tree : Tree) (p : Publication) : Chk Bundle := do
  let verified ← readDirectory L tree I.bundle_id p.revision I.project_id p.conversation_id
  let expected := p.files.mapValues fun _ raw => L.byteDigest raw
  ensure ((verified.files.all fun file => expected.get? file.path = some file.digest) &&
      expected.keys.all fun path => (verified.files.map BundleFile.path).contains path)
    (refuseAt "WORKFLOW_UNCOMMITTED_MATERIALIZATION_MISMATCH" workflowPath
      ("an uncommitted revision directory holds different bytes; " ++ "it is left untouched for inspection"))
  return verified

def materialize (disk : Disk) (p : Publication) (manifest : Mapping) (fault : Option Fault) : Disk × Chk Bundle :=
  match disk.revisions.get? p.revision, renderManifest L manifest, fault with
  | some tree, _, _ => (disk, reconcileMaterialized L I tree p)
  | none, .error failure, _ => (disk, .error failure)
  | none, .ok _, some (.staging name partly) =>
    ({ disk with staging := disk.staging.put name partly }, .error .interrupted)
  | none, .ok rendered, _ =>
    let tree := writeTree p.files rendered
    ({ disk with revisions := disk.revisions.put p.revision tree },
      readDirectory L tree I.bundle_id p.revision I.project_id p.conversation_id)

-- The record

def publishedReferences (compiled : CompiledWorkflow) : Yaml :=
  ofMap [("workflow_id", .text compiled.workflow_id), ("workflow_revision", .int compiled.revision),
    ("input_contract_ref", .text compiled.input_contract_ref),
    ("roles", Compiler.ofTextMap compiled.roles.entries),
    ("execution_kinds", .ofTexts (sortedSet
      (compiled.available_execution_kinds ++ compiled.unavailable_execution_kinds))),
    ("contracts", .ofTexts (sortedSet
      (compiled.input_contract_ref :: compiled.steps.map Compiler.CompiledStep.output_contract_ref)))]

/-- The manifest of a publication, checked against the bytes it describes. -/
def publishedManifest (p : Publication) : Chk Mapping := do
  let manifest ← manifestDocument L I.bundle_id p.revision p.files
    (publishedReferences p.compiled) p.delivery_kind
  adoptManifest L manifest I.bundle_id p.revision p.files p.delivery_kind
  return manifest

def executable (compiled : CompiledWorkflow) : Bool := compiled.unavailable_execution_kinds.isEmpty

def revisionRecord (p : Publication) (verified : Bundle) (digest : String) : Record where
  project_id := I.project_id
  conversation_id := p.conversation_id
  bundle_id := I.bundle_id
  revision := p.revision
  delivery_kind := p.delivery_kind
  manifest := verified.manifest
  files := verified.files.map RecordedFile.of
  bundle_digest := verified.bundle_digest
  manifest_file_digest := verified.manifest_file_digest
  compiled_digest := digest
  compiler_revision := Compiler.compilerRevision
  compiler_identity := Compiler.compilerIdentity
  role_digest := p.compiled.role_digest
  binding_index := p.compiled.binding_index
  readiness := if executable p.compiled then "executable" else "unavailable_capability"
  executable := executable p.compiled
  available_execution_kinds := p.compiled.available_execution_kinds
  unavailable_execution_kinds := p.compiled.unavailable_execution_kinds
  recorded_by := p.principal
  recorded_at := w.clock

def recordVerified (p : Publication) (verified : Bundle) : Chk BundleRow := do
  let recompiled ← compileBundle L verified p.compiled.binding_index
  let digest ← compiledDigest L recompiled
  let published ← compiledDigest L p.compiled
  ensure (digest = published) (refuseAt "WORKFLOW_COMPILE_UNSTABLE" workflowPath
    "the stored bytes do not compile to the published template")
  let record := revisionRecord I w p verified published
  let record_digest ← contentDigest L (ofMap record.body)
  return ⟨p.conversation_id, record, record_digest⟩

/-- Materialise one revision and read it back before it is referenced. -/
def writeRevision (disk : Disk) (p : Publication) (fault : Option Fault) : Disk × Chk BundleRow :=
  match publishedManifest L I p with
  | .error failure => (disk, .error failure)
  | .ok manifest =>
    let (disk, verified) := materialize L I disk p manifest fault
    (disk, verified >>= recordVerified L I w p)

-- The transaction

def checkHead (t : Tables) (expected : Option Nat) : Chk Unit :=
  match expected, t.current with
  | none, none => .ok ()
  | none, some _ => .error (refuse "WORKFLOW_BUNDLE_EXISTS")
  | some _, none => .error (refuse "WORKFLOW_BUNDLE_NOT_FOUND")
  | some expected, some row =>
    ensure (row.revision = expected)
      (.refused ⟨"WORKFLOW_REVISION_CONFLICT", [], []⟩ (some row.revision))

/-- The record as its caller sees it, with the fields of the command. -/
def shownResult (row : BundleRow) (finalize : List (String × Yaml)) : Yaml :=
  ofMap (finalize.foldl (fun shown field => Dict.write field.1 field.2 shown)
    (row.record.body ++ [("digest", .text row.digest)]))

def insertFile (revision : Nat) (files : Dict (Nat × String) (String × Nat)) (file : RecordedFile) :
    Chk (Dict (Nat × String) (String × Nat)) := do
  ensure (!files.contains (revision, file.path)) (refuse "WORKFLOW_STATE_UNAVAILABLE")
  return files.put (revision, file.path) (file.byte_digest, file.byte_length)

/-- The rows of a written revision, with the receipt of its command. -/
def insertRows (t : Tables) (p : Publication) (row : BundleRow) : Chk (Tables × Yaml) := do
  ensure (!t.bundles.contains p.revision) (refuse "WORKFLOW_STATE_UNAVAILABLE")
  let files ← row.record.files.foldlM (insertFile p.revision) t.files
  let result := shownResult row p.finalize
  let _ ← need (L.canonicalJson result) (refuse "WORKFLOW_CONTENT_NOT_SERIALIZABLE")
  ensure (!t.commands.contains (p.principal, p.command_key)) (refuse "WORKFLOW_STATE_UNAVAILABLE")
  return ({ t with
    bundles := t.bundles.put p.revision row
    files
    current := some ⟨p.conversation_id, p.revision⟩
    commands := t.commands.put (p.principal, p.command_key) ⟨p.request_digest, result⟩ }, result)

inductive Answer
  | published (revision : Nat) (result : Yaml)
  | replayed (result : Yaml)
  | authored (result : Yaml)
  | failed (failure : Failure)

def admitPublication (t : Tables) (p : Publication) : Chk (Option Yaml) := do
  owned L I w p.principal
  match ← replay L t p.principal p.command_key p.request_digest with
  | some result => return some result
  | none =>
    requireFixedConversation t p.conversation_id
    checkHead t p.expected_revision
    return none

/-- One publishing transaction; where it fails its rows are rolled back and the directory
it may have written stays. -/
def publish (t : Tables) (disk : Disk) (p : Publication) (fault : Option Fault) : Tables × Disk × Answer :=
  match admitPublication L I w t p with
  | .error failure => (t, disk, .failed failure)
  | .ok (some result) => (t, disk, .replayed result)
  | .ok none =>
    let (disk, written) := writeRevision L I w disk p fault
    match written >>= insertRows L t p, fault with
    | .error failure, _ => (t, disk, .failed failure)
    | .ok _, some _ => (t, disk, .failed .interrupted)
    | .ok (t', result), none => (t', disk, .published p.revision result)

-- Authoring inputs

structure AuthoringRequest where
  conversation_id : String
  payload : Mapping
  (principal command_key : String)

def nextInput (t : Tables) : Nat := t.authoring.keys.foldl max 0 + 1

/-- A text instruction is kept as it is; nothing is generated from it. -/
def author (t : Tables) (a : AuthoringRequest) : Chk (Tables × Answer) := do
  requireIdentity L I
  requireFields a.payload ["instruction", "base_revision"]
  requireConversation L I w a.conversation_id
  let refusal := refuseAt "WORKFLOW_AUTHORING_INVALID" s!"{workflowPath}#/instruction"
    "an instruction of bounded length is required"
  let instruction ← need (a.payload.get "instruction").text? refusal
  ensure (1 ≤ instruction.length && instruction.length ≤ 8000) refusal
  let base_revision := a.payload.get "base_revision"
  let digest ← contentDigest L (.list [.text "workflow.authoring", .text I.project_id,
    .text a.conversation_id, .text I.bundle_id, base_revision, .text instruction])
  owned L I w a.principal
  match ← replay L t a.principal a.command_key digest with
  | some result => return (t, .replayed result)
  | none =>
    requireFixedConversation t a.conversation_id
    if !base_revision.isNull then
      let _ ← readRecord L I t (← positive base_revision)
    requireClaimed t a.conversation_id
    let item : AuthoringInput :=
      { conversation_id := a.conversation_id, revision := nextInput t, base_revision, instruction
        recorded_by := a.principal, recorded_at := w.clock }
    let result := item.asDocument I
    let _ ← need (L.canonicalJson result) (refuse "WORKFLOW_CONTENT_NOT_SERIALIZABLE")
    return ({ t with
      authoring := t.authoring.put item.revision item
      commands := t.commands.put (a.principal, a.command_key) ⟨digest, result⟩ }, .authored result)

end Karajan.Bundles

-- Commands

namespace Karajan.Bundles

open Check
open Compiler (ofMap CompiledWorkflow)

structure Request where
  conversation_id : String
  payload : Mapping
  (principal command_key : String)

/-- A command is ready to publish, or its key already has a result. -/
inductive Prepared
  | publication (p : Publication)
  | replayed (result : Yaml)

def bundlePayloadFields : List String := ["files", "delivery_kind", "references"]

def declaredFiles (payload : Mapping) : Chk (List Yaml) :=
  need (payload.get "files").list? (refuseAt "WORKFLOW_FILE_MISSING" workflowPath
    "files must be a list of path and content")

def deliveryKind (value : Yaml) : Chk String := do
  let invalid := refuseAt "WORKFLOW_DELIVERY_KIND_INVALID" s!"{workflowPath}#/delivery_kind"
    "delivery_kind must be report, patch or pr"
  let kind ← need value.text? invalid
  ensure (deliveryKinds.contains kind) invalid
  return kind

variable (L : Library) (I : Identity) (w : World)

def prepareSupplied (command : String) (q : Request) (number revision : Nat)
    (expected_revision : Option Nat) : Chk Publication := do
  requireConversation L I w q.conversation_id
  let files ← prepareFiles L (← declaredFiles q.payload)
  let delivery_kind ← deliveryKind (q.payload.get "delivery_kind")
  let compiled ← compileFiles L I w files delivery_kind none
  let request_digest ← contentDigest L (.list [.text command, .text I.project_id,
    .text q.conversation_id, .text I.bundle_id, .int number, ofMap (filesIndex L files)])
  return { conversation_id := q.conversation_id, revision, files, delivery_kind, compiled
           principal := q.principal, command_key := q.command_key, request_digest
           expected_revision, finalize := [] }

def createBundle (q : Request) : Chk Prepared := do
  requireIdentity L I
  requireFields q.payload bundlePayloadFields
  return .publication (← prepareSupplied L I w "workflow.bundle.create" q 1 1 none)

/-- A new revision; the expected one is a conflict or not at the head, never looked up. -/
def reviseBundle (t : Tables) (expected_revision : Yaml) (q : Request) : Chk Prepared := do
  requireIdentity L I
  let expected ← positive expected_revision
  requireFields q.payload bundlePayloadFields
  owned L I w q.principal
  requireExisting t
  requireFixedConversation t q.conversation_id
  return .publication (← prepareSupplied L I w "workflow.bundle.revise" q expected (expected + 1)
    (some expected))

def editedRecord (t : Tables) (conversation_id : String) (expected : Nat) : Chk Record := do
  let record ← readRecord L I t expected
  requireFixedConversation t conversation_id
  ensure (t.current.any fun row => row.revision = expected)
    (.refused ⟨"WORKFLOW_REVISION_CONFLICT", [], []⟩ (t.current.map CurrentRow.revision))
  return record

def editedFiles (verified : Bundle) (edits : List Mapping) : Chk (Files × Yaml) := do
  let files : Files := .ofList ((verified.files.filter fun file => file.path ≠ manifestPath).map
    fun file => (file.path, file.raw))
  let raw ← need (files.get? workflowPath) .exception
  let (_, workflow) ← loadDocument L workflowPath raw
  let (edited, applied) ← applyEdits L workflow edits
  let raw ← need (L.encode ((← dump L edited) ++ "\n")) .exception
  return (files.put workflowPath raw, applied)

/-- A structural edit of the head; the bindings stay resolved as they are recorded. -/
def edit (t : Tables) (disk : Disk) (expected_revision : Yaml) (q : Request) : Chk Prepared := do
  requireIdentity L I
  let expected ← positive expected_revision
  requireFields q.payload ["edits"]
  requireConversation L I w q.conversation_id
  let edits ← requestedEdits q.payload
  let request_digest ← contentDigest L (.list [.text "workflow.bundle.edit", .text I.project_id,
    .text q.conversation_id, .text I.bundle_id, .int expected, .list (edits.map .map)])
  owned L I w q.principal
  match ← replay L t q.principal q.command_key request_digest with
  | some result => return .replayed result
  | none =>
    let record ← editedRecord L I t q.conversation_id expected
    -- a second transaction, on a record and a directory that no command changes
    let (_, verified, _) ← verifiedBundle L I w t disk expected q.principal
    let (files, applied) ← editedFiles L verified edits
    let compiled ← compileFiles L I w files record.delivery_kind (some record.binding_index)
    return .publication
      { conversation_id := q.conversation_id, revision := expected + 1, files
        delivery_kind := record.delivery_kind, compiled
        principal := q.principal, command_key := q.command_key, request_digest
        expected_revision := some expected
        finalize := [("applied_edits", applied), ("model_calls", .int 0),
          ("edit_path", .text "deterministic_structural")] }

-- The store over time

/-- The tables and directories of the identity, what is ready to publish and every
answer given so far. -/
structure Sys where
  tables : Tables
  disk : Disk
  pending : List Publication
  answers : List Answer

/-- What can happen next. Each command reads the world as it is then. -/
inductive Action
  | create (w : World) (q : Request)
  | revise (w : World) (expected_revision : Yaml) (q : Request)
  | edit (w : World) (expected_revision : Yaml) (q : Request)
  | publish (w : World) (place : Nat) (fault : Option Fault)
  | authoring (w : World) (a : AuthoringRequest) (interrupted : Bool)
  /-- A command about something else leaves its receipt in the ledger. -/
  | receipt (key : String × String) (row : CommandRow)
  /-- Someone else writes below the directory of the bundle. -/
  | outside (disk : Disk)

namespace Sys

def prepared (s : Sys) : Chk Prepared → Sys
  | .ok (.publication p) => { s with pending := s.pending ++ [p] }
  | .ok (.replayed result) => { s with answers := s.answers ++ [.replayed result] }
  | .error failure => { s with answers := s.answers ++ [.failed failure] }

def published (s : Sys) (place : Nat) (outcome : Tables × Disk × Answer) : Sys where
  tables := outcome.1
  disk := outcome.2.1
  pending := s.pending.eraseIdx place
  answers := s.answers ++ [outcome.2.2]

def authored (s : Sys) (outcome : Chk (Tables × Answer)) (interrupted : Bool) : Sys :=
  match outcome, interrupted with
  | .error failure, _ => { s with answers := s.answers ++ [.failed failure] }
  | .ok _, true => { s with answers := s.answers ++ [.failed .interrupted] }
  | .ok (tables, answer), false => { s with tables, answers := s.answers ++ [answer] }

end Sys

def step (s : Sys) : Action → Sys
  | .create w q => s.prepared (createBundle L I w q)
  | .revise w expected_revision q => s.prepared (reviseBundle L I w s.tables expected_revision q)
  | .edit w expected_revision q => s.prepared (edit L I w s.tables s.disk expected_revision q)
  | .publish w place fault =>
    match s.pending[place]? with
    | none => s
    | some p => s.published place (publish L I w s.tables s.disk p fault)
  | .authoring w a interrupted => s.authored (author L I w s.tables a) interrupted
  | .receipt key row => { s with tables := { s.tables with
      commands := s.tables.commands.putNew key row } }
  | .outside disk => { s with disk }

/-- Nothing is known of the identity yet; directories and receipts may be there. -/
def system : System Sys Action where
  initial s := s.tables.bundles = .empty ∧ s.tables.current = none ∧ s.tables.files = .empty ∧
    s.tables.authoring = .empty ∧ s.pending = [] ∧ s.answers = []
  step := step L I

/-- The directory of a committed revision is only written by commands. -/
def Untouched (s : Sys) : Action → Prop
  | .outside disk => ∀ k row, s.tables.bundles.get? k = some row →
      disk.revisions.get? k = s.disk.revisions.get? k
  | _ => True

end Karajan.Bundles
