import Karajan.Bundles.Bundle

/-!
# The bundle store

The revisions of one bundle identity, as their tables and their directories.
A command prepares what it publishes outside any transaction; publishing is one
transaction, in which the directory is written before the rows. Tables are
rolled back where a transaction fails; directories stay.
-/

namespace Karajan.Bundles

open Check
open Compiler (Diagnostic WorkflowError located ofMap CompiledWorkflow)
open Scheduling (sorted sortedSet)

-- State

structure RecordedFile where
  (path byte_digest : String)
  byte_length : Nat

structure Record where
  (project_id conversation_id bundle_id : String)
  revision : Nat
  delivery_kind : String
  manifest : Mapping
  files : List RecordedFile
  (bundle_digest manifest_file_digest compiled_digest : String)
  compiler_revision : Nat
  (compiler_identity role_digest : String)
  binding_index : Dict String Mapping
  readiness : String
  executable : Bool
  (available_execution_kinds unavailable_execution_kinds : List String)
  recorded_by : String
  recorded_at : Yaml

structure BundleRow where
  conversation_id : String
  record : Record
  digest : String

structure CurrentRow where
  conversation_id : String
  revision : Nat

structure AuthoringInput where
  conversation_id : String
  revision : Nat
  base_revision : Yaml
  (instruction recorded_by : String)
  recorded_at : Yaml

structure CommandRow where
  digest : String
  result : Yaml

/-- The tables of one bundle identity, and the ledger of the whole store. -/
structure Tables where
  bundles : Dict Nat BundleRow
  current : Option CurrentRow
  files : Dict (Nat × String) (String × Nat)
  authoring : Dict Nat AuthoringInput
  commands : Dict (String × String) CommandRow

/-- The directories below the one of the bundle, and the staging directories. -/
structure Disk where
  revisions : Dict Nat Tree
  staging : Dict String Tree

/-- A gateway binding and a connection, as the catalog reads them. -/
structure Binding where
  (id revision : Yaml)
  (digest connection_id : String)
  connection_revision : Int
  connection_digest : String

structure Connection where
  (id revision : Yaml)
  digest : String

structure Gateway where
  get_binding : (binding_id : String) → (revision : Int) → Except WorkflowError Binding
  get_connection : (connection_id : String) → (revision : Int) → Except WorkflowError Connection

structure World where
  /-- The owner of the project; none where there is no such project. -/
  owner : Option String
  conversation_project : String → Option String
  gateway : Option Gateway
  clock : Yaml

structure Identity where
  (project_id bundle_id : String)

def bundleSchemaVersion : String := "karajan.workflow-bundle-revision.v1"

def authoringSchemaVersion : String := "karajan.workflow-authoring-input.v1"

def ofDictionary (index : Dict String Mapping) : Yaml :=
  ofMap (index.entries.map fun (reference, resolved) => (reference, .map resolved))

def RecordedFile.of (file : BundleFile) : RecordedFile := ⟨file.path, file.digest, file.raw.length⟩

def RecordedFile.asDocument (file : RecordedFile) : Yaml := fileEntry file.path file.byte_digest file.byte_length

def Record.body (r : Record) : List (String × Yaml) :=
  [("schema_version", .text bundleSchemaVersion), ("project_id", .text r.project_id),
    ("conversation_id", .text r.conversation_id), ("id", .text r.bundle_id),
    ("revision", .int r.revision), ("delivery_kind", .text r.delivery_kind),
    ("manifest", .map r.manifest), ("files", .list (r.files.map RecordedFile.asDocument)),
    ("bundle_digest", .text r.bundle_digest),
    ("manifest_file_digest", .text r.manifest_file_digest),
    ("compiled_digest", .text r.compiled_digest),
    ("compiler_revision", .int r.compiler_revision),
    ("compiler_identity", .text r.compiler_identity), ("role_digest", .text r.role_digest),
    ("binding_index", ofDictionary r.binding_index), ("readiness", .text r.readiness),
    ("executable", .bool r.executable),
    ("available_execution_kinds", .ofTexts r.available_execution_kinds),
    ("unavailable_execution_kinds", .ofTexts r.unavailable_execution_kinds),
    ("predicate", ofMap [("compile", .text "read_files_and_recompile"),
      ("preview", .text "same_compiled_digest")]),
    ("recorded_by", .text r.recorded_by), ("recorded_at", r.recorded_at),
    ("activation_allowed", .bool false), ("dispatch_eligible", .bool false),
    ("model_calls", .int 0)]

def AuthoringInput.asDocument (I : Identity) (a : AuthoringInput) : Yaml :=
  ofMap [("schema_version", .text authoringSchemaVersion), ("project_id", .text I.project_id),
    ("conversation_id", .text a.conversation_id), ("bundle_id", .text I.bundle_id),
    ("revision", .int a.revision), ("base_revision", a.base_revision),
    ("instruction", .text a.instruction), ("state", .text "pending_generation"),
    ("generated_configuration", .null), ("generated_by", .null), ("model_calls", .int 0),
    ("recorded_by", .text a.recorded_by), ("recorded_at", a.recorded_at),
    ("note", .text "authoring input only; no configuration is generated here")]

variable (L : Library) (I : Identity) (w : World)

-- Plumbing

def isIdentifier (value : String) : Bool := 1 ≤ value.length && value.length ≤ 256 && !value.toList.any L.isspace

/-- The acting principal owns the project; another project is like an unknown one. -/
def owned (principal : String) : Chk Unit := do
  ensure (isIdentifier L I.project_id) (refuse "WORKFLOW_PROJECT_NOT_FOUND")
  ensure (isIdentifier L principal) (refuse "WORKFLOW_PRINCIPAL_INVALID")
  ensure (w.owner = some principal) (refuse "WORKFLOW_PROJECT_NOT_FOUND")

def requireIdentity : Chk Unit := do
  ensure (1 ≤ I.bundle_id.length && I.bundle_id.length ≤ 96) (refuse "WORKFLOW_BUNDLE_ID_INVALID")
  let invalid := refuseAt "WORKFLOW_BUNDLE_ID_INVALID" bundleIdLocation
    "a bundle identity is a single addressable segment"
  ensure (validatePath L (.text I.bundle_id)).isOk invalid
  ensure (!I.bundle_id.toList.contains '/' && !I.bundle_id.toList.contains '\\' &&
    !startsWith I.bundle_id ".") invalid

def requireFields (payload : Mapping) (allowed : List String) : Chk Unit :=
  let unknown := sorted ((payload.filterMap fun e => e.1.text?).filter fun name =>
    !allowed.contains name)
  refuseEach "WORKFLOW_SCHEMA_INVALID" (unknown.map fun name =>
    located "WORKFLOW_SCHEMA_INVALID" s!"{workflowPath}#/id={takeText 48 name}" "unknown field" none)

def replay (t : Tables) (principal key digest : String) : Chk (Option Yaml) := do
  ensure (L.identifier principal && L.identifier key) (refuse "COMMAND_IDENTITY_INVALID")
  match t.commands.get? (principal, key) with
  | none => return none
  | some row =>
    ensure (row.digest = digest) (refuse "IDEMPOTENCY_CONFLICT")
    return some row.result

def firstInput (t : Tables) : Option AuthoringInput :=
  ((t.authoring.entries.insertionSort fun a b => a.1 ≤ b.1).head?).map Prod.snd

/-- The first authoring input, where there is one, is of this conversation. -/
def requireClaimed (t : Tables) (conversation_id : String) : Chk Unit :=
  ensure ((firstInput t).all fun input => input.conversation_id = conversation_id)
    (refuse "WORKFLOW_CONVERSATION_MISMATCH")

/-- The conversation that already owns the identity is this one. -/
def requireFixedConversation (t : Tables) (conversation_id : String) : Chk Unit := do
  ensure (t.current.all fun row => row.conversation_id = conversation_id)
    (refuse "WORKFLOW_CONVERSATION_MISMATCH")
  requireClaimed t conversation_id

def requireConversation (conversation_id : String) : Chk Unit := do
  ensure (isIdentifier L conversation_id) (refuse "WORKFLOW_CONVERSATION_INVALID")
  ensure (w.conversation_project conversation_id = some I.project_id)
    (refuse "WORKFLOW_CONVERSATION_NOT_FOUND")

def requireExisting (t : Tables) : Chk Unit := ensure t.current.isSome (refuse "WORKFLOW_BUNDLE_NOT_FOUND")

/-- A stored revision record, whose digest is the one it was stored under. -/
def readRecord (t : Tables) (revision : Nat) : Chk Record := do
  let row ← need (t.bundles.get? revision) (refuse "WORKFLOW_BUNDLE_NOT_FOUND")
  let digest ← contentDigest L (ofMap row.record.body)
  ensure (digest = row.digest) (refuse "WORKFLOW_RECORD_CHANGED")
  ensure (row.record.project_id = I.project_id && row.record.bundle_id = I.bundle_id &&
    row.record.revision = revision) (refuse "WORKFLOW_RECORD_CHANGED")
  return row.record

def positive (value : Yaml) : Chk Nat := do
  let n ← need value.int? (refuse "WORKFLOW_REVISION_INVALID")
  ensure (1 ≤ n && n ≤ 1000000) (refuse "WORKFLOW_REVISION_INVALID")
  return n.toNat

-- Readback

def Record.fileAt (r : Record) : Dict String RecordedFile := .ofList (r.files.map fun file => (file.path, file))

def checkRecordedFile (r : Record) (file : BundleFile) : Chk Unit :=
  ensure ((r.fileAt.get? file.path).any fun entry =>
      entry.byte_digest = file.digest && entry.byte_length = file.raw.length)
    (refuse "WORKFLOW_FILE_DIGEST_MISMATCH")

def verifyRecord (tree : Tree) (r : Record) : Chk (Bundle × CompiledWorkflow) := do
  let verified ← readDirectory L tree I.bundle_id r.revision I.project_id r.conversation_id
  ensure (verified.bundle_digest = r.bundle_digest) (refuse "WORKFLOW_BUNDLE_DIGEST_MISMATCH")
  ensure (verified.manifest_file_digest = r.manifest_file_digest)
    (refuse "WORKFLOW_MANIFEST_DIGEST_MISMATCH")
  ensure ((r.files.all fun file => (verified.files.map BundleFile.path).contains file.path) &&
      verified.files.all fun file => r.fileAt.contains file.path)
    (refuse "WORKFLOW_FILE_INVENTORY_MISMATCH")
  let _ ← each (checkRecordedFile r) verified.files
  let compiled ← compileBundle L verified r.binding_index
  let digest ← compiledDigest L compiled
  ensure (digest = r.compiled_digest)
    (.refused ⟨"WORKFLOW_COMPILE_MISMATCH", [], [("stored_compiled_digest", r.compiled_digest)]⟩ none)
  ensure (Compiler.compilerRevision = r.compiler_revision)
    (refuse "WORKFLOW_COMPILER_REVISION_MISMATCH")
  return (verified, compiled)

/-- One revision re-read and re-verified, under the acting principal. -/
def verifiedBundle (t : Tables) (disk : Disk) (revision : Nat) (principal : String) :
    Chk (Record × Bundle × CompiledWorkflow) := do
  owned L I w principal
  let r ← readRecord L I t revision
  let tree ← need (disk.revisions.get? revision) (pathError L "WORKFLOW_FILE_MISSING" manifestPath)
  let (verified, compiled) ← verifyRecord L I tree r
  return (r, verified, compiled)

-- Gateway bindings

def referenceNotPinned (detail : String) : Failure :=
  refuseAt "WORKFLOW_REFERENCE_NOT_PINNED" s!"{workflowPath}#/bindings" detail

def parseBindingRef (reference : String) : Chk (String × Int) := do
  let body := String.ofList (reference.toList.drop "binding:".toList.length)
  let (binding_id, revision) ← need (rpartition '@' body)
    (referenceNotPinned "a gateway binding reference names an exact revision")
  ensure (binding_id ≠ "" && !(["latest", "head", "*", "next"].contains (L.casefold revision)))
    (referenceNotPinned "a latest reference is never resolved at compile or load time")
  let number ← need (L.parseInt revision) (refuseAt "WORKFLOW_REFERENCE_INVALID"
    s!"{workflowPath}#/bindings" "the binding revision is not a number")
  ensure (1 ≤ number) (refuse "WORKFLOW_REFERENCE_INVALID")
  let _ ← validatePath L (.text binding_id)
  ensure (!binding_id.toList.contains '/' && !binding_id.toList.contains '\\')
    (refuse "WORKFLOW_REFERENCE_INVALID")
  return (binding_id, number)

def fromCatalog : Except WorkflowError α → Chk α
  | .ok a => .ok a
  | .error error => .error (.refused error none)

def resolvedBinding (binding : Binding) (connection : Connection) : Mapping :=
  [(.text "binding", ofMap [("id", binding.id), ("revision", binding.revision),
      ("digest", .text binding.digest)]),
    (.text "connection", ofMap [("id", connection.id), ("revision", connection.revision),
      ("digest", .text connection.digest)]),
    (.text "execution_eligible", .bool false), (.text "verified", .bool false),
    (.text "qualification_scope", .text "declared_binding_only"),
    (.text "probe_performed", .bool false), (.text "credential_resolved", .bool false),
    (.text "draft_only", .bool true)]

def resolveBinding (index : Dict String Mapping) : Key × Yaml → Chk (Dict String Mapping)
  | (role_name, .text reference) => do
    if startsWith reference "binding:" then
      let location := s!"{workflowPath}#/bindings/id={Compiler.shown L.toLibrary role_name}"
      let (binding_id, revision) ← parseBindingRef L reference
      let gateway ← need w.gateway (refuseAt "WORKFLOW_GATEWAY_BINDING_UNAVAILABLE" location
        "no gateway catalog is configured for this deployment")
      let binding ← fromCatalog (gateway.get_binding binding_id revision)
      let connection ← fromCatalog
        (gateway.get_connection binding.connection_id binding.connection_revision)
      ensure (connection.digest = binding.connection_digest)
        (refuseAt "WORKFLOW_GATEWAY_BINDING_CHANGED" location
          "the pinned connection revision no longer matches")
      return index.put reference (resolvedBinding binding connection)
    else return index
  | _ => .ok index

def bindingIndex (workflow : Mapping) : Chk (Dict String Mapping) :=
  match workflow.get "bindings" with
  | .null => .ok .empty
  | .map declared => declared.foldlM (resolveBinding L w) .empty
  | _ => .error (refuseAt "WORKFLOW_SCHEMA_INVALID" s!"{workflowPath}#/bindings" "expected a mapping")

-- Compiling before anything is written

def filesIndex (files : Files) : List (String × Yaml) :=
  Compiler.sortedItems (files.entries.map fun (path, raw) => (path, .text (L.byteDigest raw)))

def compileFiles (files : Files) (delivery_kind : String)
    (binding_index : Option (Dict String Mapping)) : Chk CompiledWorkflow := do
  let documents ← each (fun (path, raw) => loadDocument L path raw)
    (files.entries.filter fun e => e.1 ≠ manifestPath)
  let invalid := refuseAt "WORKFLOW_SCHEMA_INVALID" workflowPath "expected a mapping"
  let workflow ← need (Dict.lookup workflowPath documents) invalid
  let declared ← need workflow.map? invalid
  let roles := roleFiles documents
  let index ← match binding_index with
    | some index => pure index
    | none => bindingIndex L w declared
  let bundle_digest ← contentDigest L (ofMap (filesIndex L files))
  let role_digest ← roleDigest L roles
  let compiled ← compiling (Compiler.compileWorkflow L.toLibrary
    { manifest := ofMap [("schema_version", .text manifestSchemaVersion),
        ("bundle_id", .text I.bundle_id)]
      roles, bundle_digest, role_digest
      template_digests := .ofList ((files.entries.filter fun e =>
        startsWith e.1 templatesPrefix).map fun (path, raw) => (path, L.byteDigest raw))
      binding_index := index } workflow)
  ensure (compiled.delivery_kind = delivery_kind)
    (refuseAt "WORKFLOW_DELIVERY_KIND_MISMATCH" s!"{workflowPath}#/delivery_kind"
      "the declared and compiled delivery kinds disagree")
  return compiled

end Karajan.Bundles
