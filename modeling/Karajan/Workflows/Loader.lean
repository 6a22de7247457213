import Karajan.Lib.Json
import Karajan.Lib.Check
import Mathlib.Data.List.Sort
import Karajan.Lib.Dict

/-!
# Workflow refusals

A refusal of the workflow control plane carries a stable reason code. What the
bundle reader, the compiler, the registry and the project table raise arrives
here as a code of theirs.
-/

namespace Karajan.Workflows

inductive Code
  | bundleDigestMismatch
  | bundleNotFound
  | capabilityUnavailable
  | compileMismatch
  | compilerRevisionMismatch
  | conversationMismatch
  | deploymentNotFound
  | deploymentRecordChanged
  | fileDigestMismatch
  | fileInventoryMismatch
  | idempotencyConflict
  | kindUnregistered
  | manifestDigestMismatch
  | packageMissing
  | previewStale
  | projectIdempotencyConflict
  | recordChanged
  | slotRevisionConflict
  | sourceChanged
  | stateUnavailable
  | uncommittedMaterializationMismatch
  | raised (text : String)
  deriving DecidableEq

def Code.text : Code → String
  | .bundleDigestMismatch => "WORKFLOW_BUNDLE_DIGEST_MISMATCH"
  | .bundleNotFound => "WORKFLOW_BUNDLE_NOT_FOUND"
  | .capabilityUnavailable => "WORKFLOW_CAPABILITY_UNAVAILABLE"
  | .compileMismatch => "WORKFLOW_COMPILE_MISMATCH"
  | .compilerRevisionMismatch => "WORKFLOW_COMPILER_REVISION_MISMATCH"
  | .conversationMismatch => "WORKFLOW_CONVERSATION_MISMATCH"
  | .deploymentNotFound => "WORKFLOW_DEPLOYMENT_NOT_FOUND"
  | .deploymentRecordChanged => "WORKFLOW_DEPLOYMENT_RECORD_CHANGED"
  | .fileDigestMismatch => "WORKFLOW_FILE_DIGEST_MISMATCH"
  | .fileInventoryMismatch => "WORKFLOW_FILE_INVENTORY_MISMATCH"
  | .idempotencyConflict => "WORKFLOW_IDEMPOTENCY_CONFLICT"
  | .kindUnregistered => "WORKFLOW_KIND_UNREGISTERED"
  | .manifestDigestMismatch => "WORKFLOW_MANIFEST_DIGEST_MISMATCH"
  | .packageMissing => "WORKFLOW_PACKAGE_MISSING"
  | .previewStale => "WORKFLOW_PREVIEW_STALE"
  | .projectIdempotencyConflict => "IDEMPOTENCY_CONFLICT"
  | .recordChanged => "WORKFLOW_RECORD_CHANGED"
  | .slotRevisionConflict => "WORKFLOW_SLOT_REVISION_CONFLICT"
  | .sourceChanged => "WORKFLOW_SOURCE_CHANGED"
  | .stateUnavailable => "WORKFLOW_STATE_UNAVAILABLE"
  | .uncommittedMaterializationMismatch => "WORKFLOW_UNCOMMITTED_MATERIALIZATION_MISMATCH"
  | .raised text => text

structure Diagnostic where
  (code location detail : String)

structure WorkflowError where
  code : Code
  current_revision : Option Nat
  diagnostics : List Diagnostic
  fields : Fields

abbrev Chk := Except WorkflowError

def plain (code : Code) : WorkflowError := ⟨code, none, [], []⟩

def withFields (code : Code) (fields : Fields) : WorkflowError := ⟨code, none, [], fields⟩

def locatedAt (code : Code) (location detail : String) : WorkflowError :=
  ⟨code, none, [⟨code.text, location, detail⟩], []⟩

/-- The conflict of a command that expected another revision of its slot. -/
def slotConflict (current : Nat) : WorkflowError := ⟨.slotRevisionConflict, some current, [], []⟩

/-- A refusal of code that is called here and knows nothing of slots. -/
structure Raised where
  text : String
  current_revision : Option Nat
  diagnostics : List Diagnostic
  fields : Fields

def Raised.error (r : Raised) : WorkflowError := ⟨.raised r.text, r.current_revision, r.diagnostics, r.fields⟩

/-- What a caller gave back, its refusal told as one of the workflow's. -/
def attempted : Except Raised α → Chk α
  | .ok a => .ok a
  | .error r => .error r.error

/-- Why a step of a command failed: a refusal, or an error of the file system or
of the database by its class name. -/
inductive StepError
  | workflow (error : WorkflowError)
  | step (name : String) (os : Bool)

def WorkflowError.conflict? (error : WorkflowError) : Option Nat :=
  if error.code = .slotRevisionConflict then error.current_revision else none

def StepError.conflict? : StepError → Option Nat
  | .workflow error => error.conflict?
  | .step .. => none

@[simp] theorem conflict?_plain (h : code ≠ .slotRevisionConflict) :
    (plain code).conflict? = none := by simp [plain, WorkflowError.conflict?, h]

@[simp] theorem conflict?_raised (r : Raised) : r.error.conflict? = none := by
  simp [Raised.error, WorkflowError.conflict?]

-- The trusted loader

open Check

structure FileIdentity where
  (path byte_digest : String)
  byte_length : Nat
  deriving DecidableEq

structure Frozen where
  (project_id conversation_id bundle_id : String)
  bundle_revision : Nat
  (delivery_kind bundle_digest manifest_file_digest : String)
  files : List FileIdentity
  binding_index : Dict String Fields
  (compiled_digest compiler_identity : String)
  (compiler_revision preview_revision : Nat)
  preview_id : String

/-- What reading a bundle directory gives; its manifest is rendered again when
the bundle is copied. -/
structure Bundle where
  files : List FileIdentity
  (bundle_digest manifest_file_digest rendered_manifest_digest : String)

structure CompiledWorkflow where
  (compiled_digest compiler_identity : String)
  compiler_revision : Nat
  (step_kinds expansion_kinds available_execution_kinds unavailable_execution_kinds : List String)

structure ExecutionKind where
  (adapter available : Bool)
  capability_evidence_refs : List String

/-- The compiler and the registry of one build of the controller. -/
structure Build where
  compileBundle : Bundle → Dict String Fields → Except Raised CompiledWorkflow
  registry : Dict String ExecutionKind

structure LoadReceipt where
  (project_id slot deployment_id bundle_id : String)
  bundle_revision : Nat
  (bundle_digest manifest_file_digest compiled_digest compiler_identity : String)
  compiler_revision : Nat
  files : List FileIdentity
  (available_execution_kinds unavailable_execution_kinds capability_evidence : List String)
  verify_bytes : Bool
  loaded_at : Rat
  process_id : Nat

def sortedSet (texts : List String) : List String := texts.dedup.insertionSort (· ≤ ·)

-- Inventories

def inventory (files : List FileIdentity) : Dict String FileIdentity :=
  Dict.ofList (files.map fun file => (file.path, file))

def inventoryFields (recorded observed : Dict String FileIdentity) : Fields :=
  [("recorded_files", Json.ofTexts ((sortedSet recorded.keys).take 16)),
   ("observed_files", Json.ofTexts ((sortedSet observed.keys).take 16))]

/-- The observed files are the recorded ones: the same paths, and under each the
same digest and length. -/
def requireInventory (recorded observed : List FileIdentity) (names bytes : Code)
    (detail : String) : Chk Unit := do
  let recorded := inventory recorded
  let observed := inventory observed
  ensure (recorded.keys.all observed.contains && observed.keys.all recorded.contains)
    (withFields names (inventoryFields recorded observed))
  let _ ← each (fun (entry : String × FileIdentity) =>
    ensure (recorded.get? entry.1 = some entry.2) (locatedAt bytes entry.1 detail)) observed.entries
  return ()

-- Loading

def workflowPath : String := "workflow.yaml"

/-- Read one package directory and check its whole recorded inventory. -/
def readPackage (package : Option (Except Raised Bundle)) (expected : Frozen) : Chk Bundle := do
  let directory ← need package
    (locatedAt .packageMissing workflowPath "the materialised package is not present")
  let verified ← attempted directory
  requireInventory expected.files verified.files .fileInventoryMismatch .fileDigestMismatch
    "stored bytes no longer match the recorded identity"
  return verified

/-- Read, inventory-check, recompile and identity-check one package. -/
def verify (build : Build) (package : Option (Except Raised Bundle)) (expected : Frozen) :
    Chk (Bundle × CompiledWorkflow) := do
  let verified ← readPackage package expected
  ensure (verified.bundle_digest = expected.bundle_digest) (plain .bundleDigestMismatch)
  ensure (verified.manifest_file_digest = expected.manifest_file_digest)
    (plain .manifestDigestMismatch)
  let compiled ← attempted (build.compileBundle verified expected.binding_index)
  -- the compiled document does not carry the compiler's revision, so that is compared by itself
  ensure (compiled.compiler_identity = expected.compiler_identity)
    (withFields .compilerRevisionMismatch
      [("recorded_compiler_identity", .str expected.compiler_identity),
       ("current_compiler_identity", .str compiled.compiler_identity)])
  ensure (compiled.compiler_revision = expected.compiler_revision)
    (withFields .compilerRevisionMismatch
      [("recorded_compiler_revision", .int expected.compiler_revision),
       ("current_compiler_revision", .int compiled.compiler_revision)])
  ensure (compiled.compiled_digest = expected.compiled_digest)
    (withFields .compileMismatch [("stored_compiled_digest", .str expected.compiled_digest)])
  return (verified, compiled)

def kindFor (build : Build) (reference : String) : Chk ExecutionKind :=
  need (build.registry.get? reference)
    { locatedAt .kindUnregistered "workflow.yaml#/steps"
        "no registered execution kind has this exact revision" with
      fields := [("execution_kind_ref", .str (String.ofList (reference.toList.take 120)))] }

def requireCapabilities (build : Build) (compiled : CompiledWorkflow) : Chk (List String) := do
  let referenced := sortedSet (compiled.step_kinds ++ compiled.expansion_kinds)
  let kinds ← each (fun reference => do
    let kind ← kindFor build reference
    return (reference, kind)) referenced
  let unavailable := (kinds.filter fun entry => !(entry.2.adapter && entry.2.available)).map Prod.fst
  ensure unavailable.isEmpty
    ⟨.capabilityUnavailable, none,
      (unavailable.take 16).map fun reference => ⟨Code.text .capabilityUnavailable, workflowPath,
        reference ++ " is registered without a callable adapter in this build"⟩,
      [("unavailable_execution_kinds", Json.ofTexts (unavailable.take 16))]⟩
  return sortedSet (kinds.flatMap fun entry => entry.2.capability_evidence_refs)

/-- Read one package and prove that it is the one the intent froze. -/
def load (build : Build) (package : Option (Except Raised Bundle)) (project_id slot deployment_id :
    String) (expected : Frozen) (now : Rat) (process_id : Nat) : Chk LoadReceipt := do
  let (verified, compiled) ← verify build package expected
  let evidence ← requireCapabilities build compiled
  return {
    project_id
    slot
    deployment_id
    bundle_id := expected.bundle_id
    bundle_revision := expected.bundle_revision
    bundle_digest := verified.bundle_digest
    manifest_file_digest := verified.manifest_file_digest
    compiled_digest := compiled.compiled_digest
    compiler_identity := compiled.compiler_identity
    compiler_revision := compiled.compiler_revision
    files := verified.files
    available_execution_kinds := compiled.available_execution_kinds
    unavailable_execution_kinds := compiled.unavailable_execution_kinds
    capability_evidence := evidence
    verify_bytes := true
    loaded_at := now
    process_id }

-- What a receipt says

structure LoadReceipt.Matches (receipt : LoadReceipt) (frozen : Frozen) : Prop where
  bundle : receipt.bundle_digest = frozen.bundle_digest
  manifest : receipt.manifest_file_digest = frozen.manifest_file_digest
  compiled : receipt.compiled_digest = frozen.compiled_digest
  compiler : receipt.compiler_identity = frozen.compiler_identity
  compilerRevision : receipt.compiler_revision = frozen.compiler_revision

theorem load_matches (h : load build package project_id slot deployment_id expected now process_id =
    .ok receipt) : receipt.Matches expected := by
  simp only [load, verify, bind_ok, pure_ok, ensure_ok, decide_eq_true_eq] at h
  obtain ⟨_, ⟨verified, -, _, hbundle, _, hmanifest, compiled, -, _, hidentity, _, hrevision, _,
    hdigest, rfl⟩, evidence, -, rfl⟩ := h
  exact ⟨hbundle, hmanifest, hdigest, hidentity, hrevision⟩

def SlotFree (error : WorkflowError) : Prop := error.conflict? = none

theorem SlotFree.of_code (h : error.code ≠ .slotRevisionConflict) : SlotFree error := if_neg h

theorem attempted_slotFree {read : Except Raised α} : Raises SlotFree (attempted read) := by
  cases read with
  | ok a => exact .ok
  | error r => exact .error (conflict?_raised r)

theorem requireInventory_slotFree (hnames : names ≠ .slotRevisionConflict)
    (hbytes : bytes ≠ .slotRevisionConflict) :
    Raises SlotFree (requireInventory recorded observed names bytes detail) :=
  (Raises.ensure (.of_code hnames)).bind fun _ =>
    (Raises.each fun _ => .ensure (.of_code hbytes)).bind fun _ => .pure

theorem readPackage_slotFree : Raises SlotFree (readPackage package expected) :=
  (Raises.need (.of_code (by simp [locatedAt]))).bind fun _ => attempted_slotFree.bind fun _ =>
    (requireInventory_slotFree (by simp) (by simp)).bind fun _ => .pure

theorem verify_slotFree : Raises SlotFree (verify build package expected) := by
  refine readPackage_slotFree.bind fun _ => ?_
  refine (Raises.ensure (.of_code (by simp [plain]))).bind fun _ => ?_
  refine (Raises.ensure (.of_code (by simp [plain]))).bind fun _ => ?_
  refine attempted_slotFree.bind fun _ => ?_
  refine (Raises.ensure (.of_code (by simp [withFields]))).bind fun _ => ?_
  refine (Raises.ensure (.of_code (by simp [withFields]))).bind fun _ => ?_
  exact (Raises.ensure (.of_code (by simp [withFields]))).bind fun _ => .pure

theorem requireCapabilities_slotFree : Raises SlotFree (requireCapabilities build compiled) := by
  refine (Raises.each fun _ => ?_).bind fun _ => ?_
  · exact (Raises.need (.of_code (by simp [locatedAt]))).bind fun _ => .pure
  · exact (Raises.ensure (.of_code (by simp))).bind fun _ => .pure

theorem load_slotFree : Raises SlotFree
    (load build package project_id slot deployment_id expected now process_id) :=
  verify_slotFree.bind fun _ => requireCapabilities_slotFree.bind fun _ => .pure

end Karajan.Workflows
