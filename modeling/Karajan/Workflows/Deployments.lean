import Karajan.Lib.Runs
import Karajan.Workflows.Loader

/-!
# Deployment commands

A command is answered from the ledger or persists one intent and runs it:
materialise the package, load it, activate the slot. Each database access is a
transaction of its own and every step on files lies between two of them. Any
number of controllers serve commands at once, each may stop anywhere, and a
command that is submitted again resumes from the intent it left.

The lock a controller holds while it reads and persists an intent is left out:
it orders the commands of one controller only.
-/

namespace Karajan.Workflows

open Check

-- Records

structure CommandKey where
  (principal key : String)
  deriving DecidableEq

structure SlotKey where
  (project_id slot : String)
  deriving DecidableEq

inductive DeployAction
  | deployOnly
  | rollback

def DeployAction.text : DeployAction → String
  | .deployOnly => "deploy_only"
  | .rollback => "rollback"

inductive Step
  | materialize
  | load
  | activate
  deriving DecidableEq

inductive Outcome
  | failed
  | activated
  deriving DecidableEq

structure Failure where
  reason_code : String
  at_step : Step
  recorded_at : Rat
  /-- The diagnostics and fields of a refusal; another error leaves none. -/
  evidence : Option (List Diagnostic × Fields)

/-- What a command was authorised with. Later writes of an intent leave it alone. -/
structure Terms where
  action : DeployAction
  (project_id conversation_id slot deployment_id : String)
  rollback_of : Option String
  expected_active_revision : Nat
  commanded_by : String
  commanded_at : Rat
  frozen : Frozen
  command_digest : Option String

structure Intent extends Terms where
  completed_steps : List Step
  outcome : Option Outcome
  failure : Option Failure
  failure_history : List Failure

structure Deployment where
  (deployment_id project_id conversation_id slot : String)
  action : DeployAction
  rollback_of : Option String
  bundle_id : String
  bundle_revision : Nat
  (delivery_kind bundle_digest manifest_file_digest compiled_digest compiler_identity : String)
  compiler_revision : Nat
  files : List FileIdentity
  (available_execution_kinds unavailable_execution_kinds capability_evidence : List String)
  expected_active_revision : Nat
  binding_index : Dict String Fields
  commanded_by : String
  commanded_at : Rat
  completed_steps : List Step
  completed_at : Rat
  load_receipt : LoadReceipt
  (receipt_digest digest : String)

structure Loaded where
  deployment_id : String
  revision : Nat
  compiled_digest : String
  loaded_by_process : Nat
  loaded_at : Rat
  verify_bytes : Bool

structure Accepted where
  deployment : Deployment
  slot_revision : Nat
  loaded : Loaded
  previous_active_revision : Nat

/-- What the shared ledger holds: a deployment's result, or another operation's. -/
inductive Result
  | deployed (accepted : Accepted)
  | other

structure LedgerRow where
  digest : String
  result : Result

structure SlotRow where
  slot_revision : Nat
  deployment_id : String
  loaded_record : Loaded

structure Tables where
  commands : Dict CommandKey LedgerRow
  intents : Dict CommandKey Intent
  deployments : Dict (SlotKey × String) Deployment
  slots : Dict SlotKey SlotRow

structure Digests where
  content : Json → String
  receipt : LoadReceipt → String
  deployment : Deployment → String

def Terms.slotKey (terms : Terms) : SlotKey := ⟨terms.project_id, terms.slot⟩

def Deployment.slotKey (record : Deployment) : SlotKey := ⟨record.project_id, record.slot⟩

def Deployment.contentDigest (D : Digests) (record : Deployment) : String :=
  D.deployment { record with digest := "" }

def Tables.slotRevision (tables : Tables) (slot : SlotKey) : Nat :=
  match tables.slots.get? slot with
  | some row => row.slot_revision
  | none => 0

-- Commands

/-- A deployment request whose fields were read and found well formed. -/
structure Deploy where
  (project_id conversation_id bundle_id : String)
  revision : Nat
  (preview_id slot : String)
  expected_active_revision : Nat

structure Rollback where
  project_id : String
  target : Deployment
  expected_active_revision : Nat

inductive Command
  | deploy (request : Deploy)
  | rollback (request : Rollback)

/-- What the command key stands for: the fields the caller authorised. -/
def Command.digest (D : Digests) : Command → String
  | .deploy request => D.content (.list
      [.str "workflow.deploy", .str DeployAction.deployOnly.text, .str request.project_id,
       .str request.conversation_id, .str request.bundle_id, .int request.revision,
       .str request.preview_id, .str request.slot, .int request.expected_active_revision])
  | .rollback request => D.content (.list
      [.str "workflow.rollback", .str request.project_id, .str request.target.slot,
       .str request.target.deployment_id, .int request.expected_active_revision,
       .str request.target.digest])

structure Published where
  (conversation_id delivery_kind bundle_digest manifest_file_digest compiled_digest : String)
  (compiler_identity : String)
  compiler_revision : Nat
  files : List FileIdentity
  binding_index : Dict String Fields
  preview_id : String

structure BundleRow where
  (digest record_digest delivery_kind : String)

inductive Commit
  | durable
  | rolledBack
  /-- It is on disk, and the caller was told otherwise. -/
  | unconfirmed

/-- What one step of a command meets outside the tables of this store. -/
structure World where
  /-- Why the project is not this principal's to change, or cannot be read. -/
  refusal : Option Raised
  commit : Commit
  now : Rat
  head : Option Nat
  published : Except Raised Published
  uuid : String
  /-- A component of the destination is not to be trusted. -/
  untrusted : Option Raised
  source : Except Raised Bundle
  /-- The class of the file system's error the copy stops at. -/
  copyError : Option String
  build : Build
  process_id : Nat
  bundleRow : Option BundleRow

def freeze (w : World) (project_id bundle_id : String) (revision : Nat) : Chk Frozen := do
  let published ← attempted w.published
  return {
    project_id
    conversation_id := published.conversation_id
    bundle_id
    bundle_revision := revision
    delivery_kind := published.delivery_kind
    bundle_digest := published.bundle_digest
    manifest_file_digest := published.manifest_file_digest
    files := published.files.insertionSort (fun a b => a.path ≤ b.path)
    binding_index := published.binding_index
    compiled_digest := published.compiled_digest
    compiler_identity := published.compiler_identity
    compiler_revision := published.compiler_revision
    preview_revision := revision
    preview_id := published.preview_id }

def intentRecord (w : World) (principal : String) (action : DeployAction) (project_id
    conversation_id slot : String) (frozen : Frozen) (expected_active : Nat)
    (rollback_of : Option String) : Intent where
  action
  project_id
  conversation_id
  slot
  deployment_id := w.uuid
  rollback_of
  expected_active_revision := expected_active
  commanded_by := principal
  commanded_at := w.now
  frozen
  command_digest := none
  completed_steps := []
  outcome := none
  failure := none
  failure_history := []

/-- Freeze the revision that was confirmed, which must still be the current one. -/
def deployIntent (w : World) (principal : String) (request : Deploy) : Chk Intent := do
  let head ← need w.head (plain .bundleNotFound)
  ensure (head = request.revision) { plain .previewStale with current_revision := some head }
  let frozen ← freeze w request.project_id request.bundle_id request.revision
  ensure (frozen.preview_id = request.preview_id)
    (withFields .previewStale [("current_preview_id", .str frozen.preview_id)])
  ensure (frozen.conversation_id = request.conversation_id) (plain .conversationMismatch)
  return intentRecord w principal .deployOnly request.project_id request.conversation_id
    request.slot frozen request.expected_active_revision none

def rollbackIntent (w : World) (principal : String) (request : Rollback) : Chk Intent := do
  let target := request.target
  let frozen ← freeze w request.project_id target.bundle_id target.bundle_revision
  return intentRecord w principal .rollback request.project_id target.conversation_id
    target.slot frozen request.expected_active_revision (some target.deployment_id)

/-- Everything is read before the intent is written; the project may be refused. -/
def Command.build (w : World) (principal : String) (command : Command) : Chk Intent :=
  match w.refusal, command with
  | some refusal, _ => .error refusal.error
  | none, .deploy request => deployIntent w principal request
  | none, .rollback request => rollbackIntent w principal request

-- Transactions

/-- One transaction of a principal on its project: it commits what `body` made of
the tables, or leaves them as they were. -/
def owned (w : World) (tables : Tables) (body : Tables → Chk (β × Tables)) : Tables × Chk β :=
  match w.refusal with
  | some refusal => (tables, .error refusal.error)
  | none =>
    match body tables with
    | .error e => (tables, .error e)
    | .ok (b, next) =>
      match w.commit with
      | .durable => (next, .ok b)
      | .rolledBack => (tables, .error (plain .stateUnavailable))
      | .unconfirmed => (next, .error (plain .stateUnavailable))

def historicalDeployment (D : Digests) (project_id target : String) (tables : Tables) :
    Chk (Deployment × Tables) := do
  let found := (tables.deployments.filter fun place _ =>
    place.1.project_id = project_id && place.2 = target).values
  let record ← need found.head? (plain .deploymentNotFound)
  ensure (record.digest = record.contentDigest D) (plain .deploymentRecordChanged)
  return (record, tables)

def lookUp (key : CommandKey) (tables : Tables) : Chk ((Option LedgerRow × Option Intent) × Tables) :=
  match tables.commands.get? key with
  | some completed => .ok ((some completed, none), tables)
  | none => .ok ((none, tables.intents.get? key), tables)

/-- Persist the intent, unless the command was finished or begun meanwhile. -/
def persist (key : CommandKey) (digest : String) (record : Intent) (tables : Tables) :
    Chk ((Result ⊕ Intent) × Tables) :=
  match tables.commands.get? key with
  | some again =>
    if again.digest = digest then .ok (.inl again.result, tables)
    else .error (plain .idempotencyConflict)
  | none =>
    match tables.intents.get? key with
    | some concurrent =>
      if concurrent.command_digest = some digest then .ok (.inr concurrent, tables)
      else .error (plain .idempotencyConflict)
    | none =>
      let record := { record with command_digest := some digest }
      .ok (.inr record, { tables with intents := tables.intents.put key record })

def mutateIntent (key : CommandKey) (change : Intent → Intent) (tables : Tables) : Chk (Unit × Tables) :=
  match tables.intents.get? key with
  | none => .ok ((), tables)
  | some record => .ok ((), { tables with intents := tables.intents.put key (change record) })

def recordStep (key : CommandKey) (step : Step) : Tables → Chk (Unit × Tables) := mutateIntent key fun record =>
    { record with completed_steps :=
        if step ∈ record.completed_steps then record.completed_steps
        else record.completed_steps ++ [step] }

def recordableFailures : List String :=
  ["OSError", "IOError", "PermissionError", "FileNotFoundError", "FileExistsError",
   "NotADirectoryError", "IsADirectoryError", "UnicodeError", "OperationalError",
   "IntegrityError", "DatabaseError"]

/-- A reason code made of a class name, where that is one of the known ones. -/
def stepFailureCode (name : String) (os : Bool) : String :=
  let name :=
    if name ∈ recordableFailures then name
    else if os then "IOError" else "UnexpectedStepFailure"
  ("WORKFLOW_STEP_FAILED_" ++ name).toUpper

def StepError.reasonCode : StepError → String
  | .workflow error => error.code.text
  | .step name os => stepFailureCode name os

def StepError.evidence : StepError → Option (List Diagnostic × Fields)
  | .workflow error => some (error.diagnostics, error.fields)
  | .step .. => none

def nextStep (completed : List Step) : Step :=
  ([Step.materialize, .load, .activate].find? (· ∉ completed)).getD .activate

/-- Persist why a command stopped. One that is in the ledger did not fail. -/
def recordFailure (now : Rat) (key : CommandKey) (error : StepError) (tables : Tables) : Chk (Unit × Tables) :=
  match tables.commands.get? key with
  | some _ => .ok ((), tables)
  | none => mutateIntent key (fun stored =>
      { stored with
        outcome := some .failed
        failure_history := stored.failure_history ++ stored.failure.toList
        failure := some ⟨error.reasonCode, nextStep stored.completed_steps, now, error.evidence⟩ })
      tables

-- Activation

def deliveryKind (w : World) : Chk String := do
  let row ← need w.bundleRow (plain .bundleNotFound)
  ensure (row.record_digest = row.digest) (plain .recordChanged)
  return row.delivery_kind

def deploymentRecord (D : Digests) (now : Rat) (intent : Intent) (receipt : LoadReceipt)
    (principal delivery_kind : String) (completed_steps : List Step) : Deployment :=
  let record : Deployment := {
    deployment_id := intent.deployment_id
    project_id := intent.project_id
    conversation_id := intent.conversation_id
    slot := intent.slot
    action := intent.action
    rollback_of := intent.rollback_of
    bundle_id := receipt.bundle_id
    bundle_revision := receipt.bundle_revision
    delivery_kind
    bundle_digest := receipt.bundle_digest
    manifest_file_digest := receipt.manifest_file_digest
    compiled_digest := receipt.compiled_digest
    compiler_identity := receipt.compiler_identity
    compiler_revision := receipt.compiler_revision
    files := receipt.files
    available_execution_kinds := receipt.available_execution_kinds
    unavailable_execution_kinds := receipt.unavailable_execution_kinds
    capability_evidence := receipt.capability_evidence
    expected_active_revision := intent.expected_active_revision
    binding_index := intent.frozen.binding_index
    commanded_by := principal
    commanded_at := intent.commanded_at
    completed_steps
    completed_at := now
    load_receipt := receipt
    receipt_digest := D.receipt receipt
    digest := "" }
  { record with digest := record.contentDigest D }

def loadedOf (record : Deployment) (receipt : LoadReceipt) : Loaded where
  deployment_id := record.deployment_id
  revision := record.bundle_revision
  compiled_digest := record.compiled_digest
  loaded_by_process := receipt.process_id
  loaded_at := receipt.loaded_at
  verify_bytes := receipt.verify_bytes

def acceptedOf (record : Deployment) (receipt : LoadReceipt) : Accepted where
  deployment := record
  slot_revision := record.expected_active_revision + 1
  loaded := loadedOf record receipt
  previous_active_revision := record.expected_active_revision

def completeIntent (key : CommandKey) (intent : Intent) : Tables → Chk (Unit × Tables) :=
  mutateIntent key fun stored =>
    { stored with
      failure_history := stored.failure_history ++ stored.failure.toList
      failure := none
      outcome := some .activated
      completed_steps := intent.completed_steps.foldl
        (fun merged step => if step ∈ merged then merged else merged ++ [step])
        stored.completed_steps
      deployment_id := intent.deployment_id }

/-- Publish the deployment and move the slot from the revision that was expected. -/
def activate (D : Digests) (w : World) (key : CommandKey) (digest : String) (intent : Intent)
    (receipt : LoadReceipt) (tables : Tables) : Chk ((Result × Bool) × Tables) := do
  match tables.commands.get? key with
  | some old => do
    ensure (old.digest = digest) (plain .projectIdempotencyConflict)
    return ((old.result, false), tables)
  | none => do
    let delivery_kind ← deliveryKind w
    let slot := intent.slotKey
    let expected := intent.expected_active_revision
    ensure (tables.slotRevision slot = expected) (slotConflict (tables.slotRevision slot))
    let completed_steps := ((tables.intents.get? key).map (·.completed_steps)).getD []
    let record := deploymentRecord D w.now intent receipt key.principal delivery_kind completed_steps
    -- a row of this identity violates the primary key
    ensure (tables.deployments.get? (slot, intent.deployment_id)).isNone (plain .stateUnavailable)
    let result := Result.deployed (acceptedOf record receipt)
    let ((), tables) ← completeIntent key intent { tables with
      deployments := tables.deployments.put (slot, intent.deployment_id) record
      slots := tables.slots.put slot
        ⟨expected + 1, intent.deployment_id, loadedOf record receipt⟩
      commands := tables.commands.put key ⟨digest, result⟩ }
    return ((result, true), tables)

-- Files

abbrev Packages := Dict (SlotKey × String) (Except Raised Bundle)

/-- Re-read the published revision, which must be the frozen one. -/
def readSource (w : World) (frozen : Frozen) : Chk Bundle := do
  let verified ← attempted w.source
  requireInventory frozen.files verified.files .sourceChanged .sourceChanged
    "the confirmed revision no longer holds the confirmed bytes"
  ensure (verified.bundle_digest = frozen.bundle_digest &&
    verified.manifest_file_digest = frozen.manifest_file_digest) (plain .sourceChanged)
  return verified

def adopt (package : Except Raised Bundle) (frozen : Frozen) : Chk Unit := do
  let verified ← attempted package
  requireInventory frozen.files verified.files .uncommittedMaterializationMismatch
    .uncommittedMaterializationMismatch
    "an interrupted copy holds different bytes; it is left for inspection"
  ensure (verified.bundle_digest = frozen.bundle_digest) (plain .bundleDigestMismatch)
  ensure (verified.manifest_file_digest = frozen.manifest_file_digest)
    (plain .manifestDigestMismatch)

def refused (check : Chk α) : Except StepError α :=
  match check with
  | .ok a => .ok a
  | .error e => .error (.workflow e)

def stopAt (error : Option StepError) : Except StepError Unit :=
  match error with
  | some e => .error e
  | none => .ok ()

def materialize (w : World) (intent : Intent) (packages : Packages) : Except StepError Packages := do
  stopAt (w.untrusted.map fun distrust => .workflow distrust.error)
  let frozen := intent.frozen
  let source ← refused (readSource w frozen)
  let destination := (intent.slotKey, intent.deployment_id)
  match packages.get? destination with
  | some package => do
    let () ← refused (adopt package frozen)
    return packages
  | none => do
    stopAt (w.copyError.map fun name => .step name true)
    let () ← refused (ensure (source.rendered_manifest_digest = frozen.manifest_file_digest)
      (plain .manifestDigestMismatch))
    return packages.put destination (.ok source)

-- Attempts

abbrev Answer := Except StepError (Result × Bool)

inductive Next
  | materialize
  | recordMaterialize
  | load
  | recordLoad (receipt : LoadReceipt)
  | activate (receipt : LoadReceipt)

/-- How far one call has come, with what it holds in memory. -/
inductive Stage
  | targeting (project_id target : String) (expected_active_revision : Nat)
  | received (command : Command)
  | building (command : Command)
  | built (command : Command) (record : Intent)
  | running (digest : String) (intent : Intent) (next : Next)
  | failing (error : StepError)
  | answered (answer : Answer)
  | stopped

structure Attempt where
  controller : Nat
  key : CommandKey
  stage : Stage

def onward (read : Chk β) (next : β → Stage) (fail : StepError → Stage) : Stage :=
  match read with
  | .ok b => next b
  | .error e => fail (.workflow e)

def answerError (error : StepError) : Stage := .answered (.error error)

/-- A finished command is answered from the ledger, an unfinished one is resumed
from its own intent. -/
def resolve (digest : String) (command : Command) : Option LedgerRow × Option Intent → Stage
  | (some completed, _) =>
    if completed.digest = digest then .answered (.ok (completed.result, false))
    else answerError (.workflow (plain .idempotencyConflict))
  | (none, none) => .building command
  | (none, some stored) =>
    if stored.command_digest = none ∨ stored.command_digest = some digest then
      .running digest stored .materialize
    else answerError (.workflow (plain .idempotencyConflict))

def execute (D : Digests) (w : World) (key : CommandKey) (digest : String) (intent : Intent)
    (tables : Tables) (packages : Packages) : Next → Tables × Packages × Stage
  | .materialize =>
    match materialize w intent packages with
    | .ok packages => (tables, packages, .running digest intent .recordMaterialize)
    | .error e => (tables, packages, .failing e)
  | .recordMaterialize =>
    let (tables, recorded) := owned w tables (recordStep key .materialize)
    (tables, packages, onward recorded (fun _ => .running digest intent .load) .failing)
  | .load =>
    let receipt := load w.build (packages.get? (intent.slotKey, intent.deployment_id))
      intent.project_id intent.slot intent.deployment_id intent.frozen w.now w.process_id
    (tables, packages, onward receipt (fun receipt => .running digest intent (.recordLoad receipt)) .failing)
  | .recordLoad receipt =>
    let (tables, recorded) := owned w tables (recordStep key .load)
    (tables, packages, onward recorded (fun _ => .running digest intent (.activate receipt)) .failing)
  | .activate receipt =>
    let (tables, result) := owned w tables (activate D w key digest intent receipt)
    (tables, packages, onward result (fun result => .answered (.ok result)) .failing)

def Attempt.advance (D : Digests) (w : World) (attempt : Attempt) (tables : Tables)
    (packages : Packages) : Tables × Packages × Stage :=
  let key := attempt.key
  match attempt.stage with
  | .targeting project_id target expected =>
    let (tables, found) := owned w tables (historicalDeployment D project_id target)
    (tables, packages, onward found
      (fun target => .received (.rollback ⟨project_id, target, expected⟩)) answerError)
  | .received command =>
    let (tables, found) := owned w tables (lookUp key)
    (tables, packages, onward found (resolve (command.digest D) command) answerError)
  | .building command =>
    (tables, packages, onward (command.build w key.principal) (.built command) answerError)
  | .built command record =>
    let digest := command.digest D
    let (tables, persisted) := owned w tables (persist key digest record)
    (tables, packages, onward persisted
      (fun
        | .inl result => .answered (.ok (result, false))
        | .inr intent => .running digest intent .materialize)
      answerError)
  | .running digest intent next => execute D w key digest intent tables packages next
  | .failing error =>
    -- an error while the failure is recorded does not replace the first one
    let (tables, _) := owned w tables (recordFailure w.now key error)
    (tables, packages, answerError error)
  | .answered answer => (tables, packages, .answered answer)
  | .stopped => (tables, packages, .stopped)

def Attempt.crash (controller : Nat) (attempt : Attempt) : Attempt :=
  match attempt.stage with
  | .answered _ => attempt
  | _ => if attempt.controller = controller then { attempt with stage := .stopped } else attempt

-- The system

structure State where
  tables : Tables
  packages : Packages
  attempts : List Attempt

inductive Call
  | deploy (request : Deploy)
  | rollback (project_id target : String) (expected_active_revision : Nat)

def Call.stage : Call → Stage
  | .deploy request => .received (.deploy request)
  | .rollback project_id target expected => .targeting project_id target expected

inductive Action
  /-- A call arrives at a controller; the same key may be submitted any number of times. -/
  | submit (controller : Nat) (key : CommandKey) (call : Call)
  | advance (index : Nat) (w : World)
  | crash (controller : Nat)
  /-- The files of a package change under the controllers. -/
  | disturb (place : SlotKey × String) (found : Option (Except Raised Bundle))
  /-- Another operation of the control plane uses the shared ledger. -/
  | ledger (key : CommandKey) (digest : String)

def Tables.useLedger (tables : Tables) (key : CommandKey) (digest : String) : Tables :=
  match tables.commands.get? key with
  | some ⟨_, .deployed _⟩ => tables
  | _ => { tables with commands := tables.commands.put key ⟨digest, .other⟩ }

def State.advance (D : Digests) (s : State) (index : Nat) (w : World) : State :=
  match s.attempts[index]? with
  | none => s
  | some attempt =>
    let (tables, packages, stage) := attempt.advance D w s.tables s.packages
    { tables, packages, attempts := s.attempts.set index { attempt with stage } }

def State.step (D : Digests) (s : State) : Action → State
  | .submit controller key call =>
    { s with attempts := s.attempts ++ [⟨controller, key, call.stage⟩] }
  | .advance index w => s.advance D index w
  | .crash controller => { s with attempts := s.attempts.map (Attempt.crash controller) }
  | .disturb place (some found) => { s with packages := s.packages.put place found }
  | .disturb place none => { s with packages := s.packages.erase place }
  | .ledger key digest => { s with tables := s.tables.useLedger key digest }

def State.empty : State := ⟨⟨.empty, .empty, .empty, .empty⟩, .empty, []⟩

def system (D : Digests) : System State Action where
  initial s := s = State.empty
  step := State.step D

end Karajan.Workflows
