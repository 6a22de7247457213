import Karajan.Lib.Dfs
import Karajan.Scheduling.Credentials
import Karajan.Scheduling.Grants

/-!
# Versioned task graphs

Immutable revisions, frozen tasks, surviving obligations. A task names its
dependencies and the outcomes it promised; an expansion set is an open batch of
members until it is sealed; a graph revision records the effective task set an
accepted decision produced.
-/

namespace Karajan.Scheduling

open Check
open Json (ofText? ofTime? ofTexts ofNat?)

inductive TaskState
  | queued
  | blocked
  | claimed
  | completed
  | failed
  | cancelled
  | superseded
  | unknown
  deriving DecidableEq

def TaskState.text : TaskState → String
  | .queued => "queued"
  | .blocked => "blocked"
  | .claimed => "claimed"
  | .completed => "completed"
  | .failed => "failed"
  | .cancelled => "cancelled"
  | .superseded => "superseded"
  | .unknown => "unknown"

def retiredStates : List TaskState := [.superseded, .cancelled]

def occupyingStates : List TaskState := [.claimed, .unknown]

/-- What an execution consumer may report about one attempt. -/
inductive Reported
  | started
  | completed
  | failed
  | unknown
  | cancelled
  deriving DecidableEq

def Reported.text : Reported → String
  | .started => "started"
  | .completed => "completed"
  | .failed => "failed"
  | .unknown => "unknown"
  | .cancelled => "cancelled"

def Reported.ofText? (text : String) : Option Reported :=
  [Reported.started, .completed, .failed, .unknown, .cancelled].find? fun o => o.text = text

inductive Dispatch
  | dispatched
  | held
  deriving DecidableEq

def Dispatch.text : Dispatch → String
  | .dispatched => "dispatched"
  | .held => "held"

def Dispatch.ofText? (text : String) : Option Dispatch :=
  [Dispatch.dispatched, .held].find? fun d => d.text = text

def taskFields : List String :=
  ["task_id", "item_key", "role_alias", "execution_kind_ref", "model_ref", "tool_refs",
   "output_contract_ref", "inputs", "depends_on", "required", "priority", "write_zone",
   "path_scope", "required_outcomes", "expansion_id", "joins", "supersedes", "cancels",
   "obligation_coverage"]

def decisionFields : List String :=
  ["decision_id", "grant_id", "term", "expected_graph_revision", "graph_digest", "inputs_digest",
   "trigger", "reason", "actions"]

def actionFields : Action → List String
  | .expandGraph => ["action", "expansion_id", "tasks"]
  | .bindRole => ["action", "task_id", "role_alias"]
  | .setDependencies => ["action", "task_id", "depends_on"]
  | .setPriority => ["action", "task_id", "priority"]
  | .requestDispatch => ["action", "task_id", "dispatch"]
  | .seal => ["action", "expansion_id", "members", "obligations"]

def itemKeyStart (c : Char) : Bool := c.isAlphanum

def itemKeyRest (c : Char) : Bool := c.isAlphanum || c == '.' || c == '_' || c == '-'

def isItemKey (text : String) : Bool :=
  match text.toList with
  | [] => false
  | c :: rest => itemKeyStart c && rest.length ≤ 63 && rest.all itemKeyRest

def taskIdentity (decision_id item_key : String) : Chk String := do
  ensure (isItemKey item_key)
    (refusal .taskInvalid "scheduling#/actions/tasks/item_key"
      "an item key is 1..64 letters, digits, dot, dash or underscore")
  let candidate := decision_id ++ "." ++ item_key
  ensure (candidate.toList.length ≤ 128)
    (refusal .taskInvalid "scheduling#/actions/tasks/item_key"
      "the derived task identity exceeds 128 characters")
  return candidate

-- Tasks

structure Report where
  reported_at : Rat
  reported_by : String
  reporter_kind : CredentialKind
  outcome : Reported
  evidence_ref : String
  attempt_ref : Option String
  note : String

def Report.body (report : Report) : Json :=
  .object
    [("reported_at", .float report.reported_at),
     ("reported_by", .str report.reported_by),
     ("reporter_kind", .str report.reporter_kind.text),
     ("outcome", .str report.outcome.text),
     ("evidence_ref", .str report.evidence_ref),
     ("attempt_ref", ofText? report.attempt_ref),
     ("note", .str report.note),
     ("verified_by_engine", .bool false),
     ("physical_execution", .str "not_started"),
     ("trusted", .bool false)]

/-- One step of a task's history; what caused the step is in `extra`. -/
structure HistoryEntry where
  state : TaskState
  at_time : Option Rat
  by_ref : String
  graph_revision : Nat
  extra : Fields := []

def HistoryEntry.body (entry : HistoryEntry) : Json :=
  .object
    ([("state", .str entry.state.text),
      ("at", ofTime? entry.at_time),
      ("by", .str entry.by_ref),
      ("graph_revision", .int entry.graph_revision)] ++ entry.extra)

structure Task where
  (task_id run_id : String)
  (revision graph_revision : Nat)
  origin : String
  (decision_id parent_task_id expansion_id role_alias role_ref : Option String)
  execution_kind_ref : String
  model_ref : Option String
  tool_refs : List String
  output_contract_ref : String
  inputs : Fields
  (depends_on declared_depends_on inferred_depends_on joins : List String)
  required : Bool
  priority : Nat
  write_zone : String
  (path_scope required_outcomes : List String)
  obligation_coverage : Fields
  state : TaskState
  (supersedes superseded_by : Option String)
  dispatch : Dispatch
  (claim_id claimed_by : Option String)
  claimed_at : Option Rat
  attempt_ref : Option String
  reports : List Report
  history : List HistoryEntry
  grant_id : Option String
  reported_state : Option Reported
  untrusted_observations : Option Nat
  reconciled_at : Option Rat
  reconciled_by : Option String
  reconciliation_outcome : Option Reported
  reconciliation_required : Bool
  digest : String

def Task.live (task : Task) : Bool := !retiredStates.contains task.state

def Task.obligations (task : Task) : List String := task.required_outcomes

def present (name : String) (value : Option Json) : Fields :=
  match value with
  | some value => [(name, value)]
  | none => []

def Task.body (task : Task) : Json :=
  .object
    ([("schema_version", .str "karajan.scheduled-task.v1"),
      ("task_id", .str task.task_id),
      ("run_id", .str task.run_id),
      ("revision", .int task.revision),
      ("graph_revision", .int task.graph_revision),
      ("origin", .str task.origin),
      ("decision_id", ofText? task.decision_id),
      ("parent_task_id", ofText? task.parent_task_id),
      ("expansion_id", ofText? task.expansion_id),
      ("role_alias", ofText? task.role_alias),
      ("role_ref", ofText? task.role_ref),
      ("execution_kind_ref", .str task.execution_kind_ref),
      ("model_ref", ofText? task.model_ref),
      ("tool_refs", ofTexts task.tool_refs),
      ("output_contract_ref", .str task.output_contract_ref),
      ("inputs", .object task.inputs),
      ("depends_on", ofTexts task.depends_on),
      ("declared_depends_on", ofTexts task.declared_depends_on),
      ("inferred_depends_on", ofTexts task.inferred_depends_on),
      ("joins", ofTexts task.joins),
      ("required", .bool task.required),
      ("priority", .int task.priority),
      ("write_zone", .str task.write_zone),
      ("path_scope", ofTexts task.path_scope),
      ("required_outcomes", ofTexts task.required_outcomes),
      ("obligation_coverage", .object task.obligation_coverage),
      ("state", .str task.state.text),
      ("supersedes", ofText? task.supersedes),
      ("superseded_by", ofText? task.superseded_by),
      ("dispatch", .str task.dispatch.text),
      ("claim_id", ofText? task.claim_id),
      ("claimed_by", ofText? task.claimed_by),
      ("claimed_at", ofTime? task.claimed_at),
      ("attempt_ref", ofText? task.attempt_ref),
      ("reports", .list (task.reports.map Report.body)),
      ("history", .list (task.history.map HistoryEntry.body)),
      ("physical_execution", .str "not_started"),
      ("model_calls", .int 0)] ++
      present "grant_id" (task.grant_id.map .str) ++
      present "reported_state" (task.reported_state.map fun o => .str o.text) ++
      present "untrusted_observations" (task.untrusted_observations.map fun n => .int n) ++
      present "reconciled_at" (task.reconciled_at.map .float) ++
      present "reconciled_by" (task.reconciled_by.map .str) ++
      present "reconciliation_outcome" (task.reconciliation_outcome.map fun o => .str o.text) ++
      present "reconciliation_required" (if task.reconciliation_required then some (.bool true) else none))

def resealTask (P : Platform) (task : Task) : Task := { task with digest := P.contentDigest task.body }

def taskChanged (P : Platform) (task : Task) : Bool := task.digest ≠ P.contentDigest task.body

structure TaskSpec where
  task_id : Option String
  item_key : Json
  (role_alias role_ref execution_kind_ref : String)
  model_ref : Option String
  tool_refs : List String
  output_contract_ref : String
  inputs : Fields
  (depends_on declared_depends_on inferred_depends_on joins : List String)
  required : Bool
  priority : Nat
  write_zone : String
  (path_scope required_outcomes : List String)
  (expansion_id supersedes : Option String)
  obligation_coverage : Fields

/-- Build one immutable task document, with the digest that identifies it. -/
def taskDocument (P : Platform) (spec : TaskSpec) (task_id run_id : String) (graph_revision : Nat)
    (origin : String) (decision_id : Option String) (role_ref parent_task_id supersedes : Option String) : Task :=
  resealTask P {
    task_id, run_id, graph_revision, origin, decision_id, parent_task_id, role_ref, supersedes
    revision := 1
    expansion_id := spec.expansion_id
    role_alias := some spec.role_alias
    execution_kind_ref := spec.execution_kind_ref
    model_ref := spec.model_ref
    tool_refs := spec.tool_refs
    output_contract_ref := spec.output_contract_ref
    inputs := spec.inputs
    depends_on := spec.depends_on
    declared_depends_on := spec.declared_depends_on
    inferred_depends_on := spec.inferred_depends_on
    joins := spec.joins
    required := spec.required
    priority := spec.priority
    write_zone := spec.write_zone
    path_scope := spec.path_scope
    required_outcomes := spec.required_outcomes
    obligation_coverage := spec.obligation_coverage
    state := .queued
    superseded_by := none
    dispatch := .dispatched
    claim_id := none
    claimed_by := none
    claimed_at := none
    attempt_ref := none
    reports := []
    history := [{ state := .queued, at_time := none, by_ref := origin, graph_revision }]
    grant_id := none
    reported_state := none
    untrusted_observations := none
    reconciled_at := none
    reconciled_by := none
    reconciliation_outcome := none
    reconciliation_required := false
    digest := "" }

-- The frozen definitions

structure ExecutionKind where
  (inputs required_inputs outputs : List String)

/-- The trusted definitions one run froze. The stored document declares no
steps; a reader of it takes them to be none. -/
structure Definitions where
  role_refs : Dict String String
  execution_kinds : Dict String ExecutionKind
  contracts : List String
  steps : List String := []

def Definitions.requireKind (definitions : Definitions) (reference pointer : String) : Chk ExecutionKind :=
  need (definitions.execution_kinds.get? reference)
    (refusal .kindUnresolved s!"{pointer}/execution_kind_ref"
      "the frozen deployment does not reference that registered kind"
      [("execution_kind_ref", .str reference)])

def Definitions.requireContract (definitions : Definitions) (reference pointer : String) : Chk Unit :=
  ensure (definitions.contracts.contains reference)
    (refusal .contractUnresolved s!"{pointer}/output_contract_ref"
      "the frozen deployment does not declare that contract" [("contract_ref", .str reference)])

/-- The output contract is one the kind produces; a kind that declares no
outputs produces any. -/
def requireContractForKind (kind : ExecutionKind) (kind_ref contract_ref pointer : String) : Chk Unit :=
  ensure (kind.outputs.length == 0 || kind.outputs.contains contract_ref)
    (refusal .outputContractIncompatible s!"{pointer}/output_contract_ref"
      "the selected execution kind does not produce that contract"
      [("execution_kind_ref", .str kind_ref), ("output_contract_ref", .str contract_ref),
       ("declared_outputs", ofTexts (kind.outputs.take 16))])

mutual

/-- Every symbolic reference one bound value names. A `literal:` text is data. -/
def referencesOf : Json → List String
  | .str text => if startsWith text "literal:" then [] else [text]
  | .list items => referencesOfEach items
  | _ => []

def referencesOfEach : List Json → List String
  | [] => []
  | item :: rest => referencesOf item ++ referencesOfEach rest

end

def producerOf (reference : String) : Option String :=
  if endsWith reference ".output" then some (dropEnd 7 reference) else none

def requireReference (grant : Authority) (producers : List String) (name pointer : String)
    (reference : String) : Chk Unit :=
  let fields : List (String × Json) := [("input", .str name), ("reference", .str (takeText 96 reference))]
  if grant.inputs.contains reference then .ok ()
  else
    match producerOf reference with
    | some producer =>
      ensure (producers.contains producer)
        (refusal .inputReferenceUnresolved s!"{pointer}/inputs/id={name}"
          "no step or task of this run produces that output" fields)
    | none =>
      .error (refusal .grantInputNotPermitted s!"{pointer}/inputs/id={name}"
        "the grant does not permit reading that reference" fields)

def inputOrder (one other : String × Json) : Prop := one.1 ≤ other.1

instance : DecidableRel inputOrder := fun one other => inferInstanceAs (Decidable (one.1 ≤ other.1))

/-- One task's bindings against the kind's declared arguments and the references
the grant permits. -/
def validateInputs (kind : ExecutionKind) (inputs : Fields) (pointer : String) (grant : Authority)
    (producers : List String) : Chk Unit := do
  let missing := sorted (kind.required_inputs.filter fun name => (findField inputs name).isNone)
  ensure (missing.length == 0)
    (refusal .inputMissing s!"{pointer}/inputs" "a required input of the execution kind is not bound"
      [("inputs", ofTexts (missing.take 8))])
  let unknown := sorted (outside inputs kind.inputs)
  ensure (unknown.length == 0)
    (refusal .inputUnknown s!"{pointer}/inputs" "the execution kind declares no such input"
      [("inputs", ofTexts (unknown.take 8))])
  let _ ← each (fun (name, value) =>
      each (requireReference grant producers name pointer) (referencesOf value))
    (inputs.insertionSort inputOrder)

-- Validation

def listOf (value : Json) (code : Code) (pointer : String) : Chk (List String) :=
  match value with
  | .null => .ok []
  | _ => textList value code pointer 512

def identifierList (value : Json) (code : Code) (pointer : String) : Chk (List String) := do
  let items ← listOf value code pointer
  each (fun item => boundedIdentifier (.str item) code pointer) items

def inferredDependencies (inputs : Fields) (producers : List String) : List String :=
  sortedSet <| ((inputs.map Prod.snd).flatMap referencesOf).filterMap fun reference =>
    (producerOf reference).filter producers.contains

/-- Python's truth of a value: `null`, `false`, zero and the empty ones are false. -/
def truthy : Json → Bool
  | .null => false
  | .bool b => b
  | .int n => n != 0
  | .float q => q != 0
  | .str s => s != ""
  | .list items => items.length != 0
  | .object fields => fields.length != 0

def declaredScope (value : Json) (grant : Authority) : Json :=
  if truthy value then value else ofTexts grant.scope

def requireSuperseded (value : Json) (pointer : String) (known_tasks : Dict String Task) : Chk String := do
  let supersedes ← boundedIdentifier value .taskInvalid s!"{pointer}/supersedes"
  let task ← need (known_tasks.get? supersedes)
    (refusal .taskNotFound s!"{pointer}/supersedes" "no such task")
  ensure task.live (refusal .taskFrozen s!"{pointer}/supersedes" "that task is already retired")
  return supersedes

section
variable (fields : Fields)

/-- The identity a spec states for itself: its task id, else its item key. -/
def statedIdentity (pointer : String) : Chk (Option String) :=
  match field fields "task_id" with
  | .null => optionalIdentifier (field fields "item_key") .taskInvalid s!"{pointer}/item_key"
  | value => some <$> boundedIdentifier value .taskInvalid s!"{pointer}/task_id"

/-- The role a spec binds, with the revision the grant fixes for it. -/
def taskRole (grant : Authority) (pointer : String) : Chk (String × String) := do
  let role_alias ← boundedIdentifier (field fields "role_alias") .taskInvalid s!"{pointer}/role_alias"
  let role_ref ← need (grant.role_refs.get? role_alias)
    (refusal .grantRoleNotPermitted s!"{pointer}/role_alias"
      "the grant does not permit binding that role" [("role_alias", .str role_alias)])
  return (role_alias, role_ref)

/-- The execution kind a spec names. A grant that names no kinds permits every
frozen one. -/
def taskKind (grant : Authority) (definitions : Definitions) (pointer : String) :
    Chk (String × ExecutionKind) := do
  let kind_ref ← boundedIdentifier (field fields "execution_kind_ref") .taskInvalid
    s!"{pointer}/execution_kind_ref"
  let kind ← definitions.requireKind kind_ref pointer
  ensure (grant.execution_kind_refs.length == 0 || grant.execution_kind_refs.contains kind_ref)
    (refusal .grantKindNotPermitted s!"{pointer}/execution_kind_ref"
      "the grant does not permit that execution kind revision"
      [("execution_kind_ref", .str kind_ref)])
  return (kind_ref, kind)

def taskModel (grant : Authority) (pointer : String) : Chk (Option String) := do
  let model_ref ← optionalIdentifier (field fields "model_ref") .taskInvalid s!"{pointer}/model_ref"
  ensure (match model_ref with | none => true | some model => grant.model_refs.contains model)
    (refusal .grantModelNotPermitted s!"{pointer}/model_ref"
      "the grant does not permit that model source" [("model_ref", ofText? model_ref)])
  return model_ref

def taskTools (grant : Authority) (pointer : String) : Chk (List String) := do
  let tool_refs ←
    identifierList (fieldD fields "tool_refs" (.list [])) .taskInvalid s!"{pointer}/tool_refs"
  let extra := notIn grant.tool_refs tool_refs
  ensure (extra.length == 0)
    (refusal .grantToolNotPermitted s!"{pointer}/tool_refs" "the grant does not permit that tool"
      [("tool_refs", ofTexts (extra.take 8))])
  return sorted tool_refs

def taskContract (definitions : Definitions) (kind_ref : String)
    (kind : ExecutionKind) (pointer : String) : Chk String := do
  let output_contract_ref ← boundedIdentifier (field fields "output_contract_ref") .taskInvalid
    s!"{pointer}/output_contract_ref"
  requireContractForKind kind kind_ref output_contract_ref pointer
  definitions.requireContract output_contract_ref pointer
  return output_contract_ref

def taskInputs (grant : Authority) (kind : ExecutionKind) (producers : List String)
    (pointer : String) : Chk Fields := do
  let inputs ← need (fieldD fields "inputs" (.object [])).object?
    (refusal .taskInvalid s!"{pointer}/inputs" "expected an object")
  validateInputs kind inputs pointer grant producers
  return inputs

/-- The edges of a spec, the declared ones apart from those a binding implies. -/
structure TaskEdges where
  (depends_on declared_depends_on inferred_depends_on joins : List String)

def taskEdges (fields inputs : Fields) (producers : List String) (task_id : Option String)
    (pointer : String) : Chk TaskEdges := do
  let declared_depends_on ←
    identifierList (fieldD fields "depends_on" (.list [])) .taskInvalid s!"{pointer}/depends_on"
  let inferred := inferredDependencies inputs producers
  let depends_on := sortedSet (declared_depends_on ++ inferred)
  ensure (match task_id with | none => true | some task_id => !depends_on.contains task_id)
    (refusal .taskSelfDependency s!"{pointer}/depends_on" "a task depends on itself")
  let joins ← identifierList (fieldD fields "joins" (.list [])) .taskInvalid s!"{pointer}/joins"
  return { depends_on, declared_depends_on := sorted declared_depends_on,
           inferred_depends_on := inferred, joins := sorted joins }

def taskScopes (P : Platform) (fields : Fields) (grant : Authority) (pointer : String) :
    Chk (String × List String) := do
  let write_zone ← normalizedPath P (field fields "write_zone") .taskInvalid s!"{pointer}/write_zone"
  let path_scope ← normalizedScopes P (declaredScope (field fields "path_scope") grant) .taskInvalid
    s!"{pointer}/path_scope"
  ensure (containsScope grant.scope path_scope)
    (refusal .grantScopeExceeded s!"{pointer}/path_scope"
      "the read scope is not contained in the grant's paths"
      [("scope", ofTexts (path_scope.take 8))])
  ensure (containsScope grant.write_scope [write_zone])
    (refusal .grantScopeExceeded s!"{pointer}/write_zone"
      "the write zone is not contained in the grant's write paths" [("write_zone", .str write_zone)])
  return (write_zone, path_scope)

def taskOutcomes (grant : Authority) (pointer : String) : Chk (List String) := do
  let required_outcomes ← identifierList (fieldD fields "required_outcomes" (.list [])) .taskInvalid
    s!"{pointer}/required_outcomes"
  let extra := notIn grant.required_outcomes required_outcomes
  ensure (extra.length == 0)
    (refusal .grantOutcomeNotPermitted s!"{pointer}/required_outcomes"
      "the grant does not carry that outcome obligation"
      [("required_outcomes", ofTexts (extra.take 8))])
  return sorted required_outcomes

end

/-- Validate one task a decision wants to create, against the grant and the
graph. A value the grant does not permit is refused, never narrowed. -/
def validateTaskSpec (P : Platform) (value : Json) (grant : Authority) (pointer : String)
    (definitions : Definitions) (known_tasks : Dict String Task) (producers : List String) : Chk TaskSpec := do
  let fields ← need value.object? (refusal .taskInvalid pointer "expected an object")
  let unknown := outside fields taskFields
  ensure (unknown.length == 0) (unknownFields .taskInvalid pointer unknown)
  let task_id ← statedIdentity fields pointer
  let (role_alias, role_ref) ← taskRole fields grant pointer
  let (kind_ref, kind) ← taskKind fields grant definitions pointer
  let model_ref ← taskModel fields grant pointer
  let tool_refs ← taskTools fields grant pointer
  let output_contract_ref ← taskContract fields definitions kind_ref kind pointer
  let inputs ← taskInputs fields grant kind producers pointer
  let edges ← taskEdges fields inputs producers task_id pointer
  let (write_zone, path_scope) ← taskScopes P fields grant pointer
  let required_outcomes ← taskOutcomes fields grant pointer
  let expansion_id ←
    optionalIdentifier (field fields "expansion_id") .taskInvalid s!"{pointer}/expansion_id"
  let required ← need (fieldD fields "required" (.bool true)).bool?
    (refusal .taskInvalid s!"{pointer}/required" "expected a boolean")
  let priority ←
    nonNegativeCount (fieldD fields "priority" (.int 0)) .taskInvalid s!"{pointer}/priority" 1000
  let supersedes ← optional (fun value => requireSuperseded value pointer known_tasks)
    (field fields "supersedes")
  let coverage ← need (fieldD fields "obligation_coverage" (.object [])).object? (plain .taskInvalid)
  return {
    task_id, role_alias, role_ref, model_ref, tool_refs, output_contract_ref, inputs, required
    priority, write_zone, path_scope, required_outcomes, expansion_id, supersedes
    item_key := field fields "item_key"
    execution_kind_ref := kind_ref
    depends_on := edges.depends_on
    declared_depends_on := edges.declared_depends_on
    inferred_depends_on := edges.inferred_depends_on
    joins := edges.joins
    obligation_coverage := coverage }

/-- One action of a decision: a known name and its own fields, nothing more. -/
structure ParsedAction where
  name : Action
  fields : Fields

structure ParsedDecision where
  (decision_id grant_id : String)
  (term expected_graph_revision : Nat)
  graph_digest : Option String
  (inputs_digest trigger reason : String)
  actions : List ParsedAction

def ParsedDecision.body (parsed : ParsedDecision) : Json :=
  .object
    [("decision_id", .str parsed.decision_id),
     ("grant_id", .str parsed.grant_id),
     ("term", .int parsed.term),
     ("expected_graph_revision", .int parsed.expected_graph_revision),
     ("graph_digest", ofText? parsed.graph_digest),
     ("inputs_digest", .str parsed.inputs_digest),
     ("trigger", .str parsed.trigger),
     ("reason", .str parsed.reason),
     ("actions", .list (parsed.actions.map fun action => .object action.fields))]

def parseAction (P : Platform) (value : Json) (pointer : String) : Chk ParsedAction := do
  let fields ← need value.object? (refusal .actionInvalid pointer "expected an object")
  let stated := field fields "action"
  let name ← need (stated.str?.bind Action.ofText?)
    (refusal .actionUnsupported pointer "an action is one of the declared scheduling actions"
      [("action", .str (takeText 64 (P.str stated)))])
  let unknown := outside fields (actionFields name)
  ensure (unknown.length == 0) (unknownFields .actionInvalid pointer unknown)
  return { name, fields }

def digestText? (value : Json) : Option String := value.str?.filter fun text => text.toList.length == 64

def validateDecisionPayload (P : Platform) (value : Json) : Chk ParsedDecision := do
  let fields ← need value.object? (plain .inputInvalid)
  let unknown := outside fields decisionFields
  ensure (unknown.length == 0) (unknownFields .inputInvalid "scheduling#/decision" unknown)
  let decision_id ←
    boundedIdentifier (field fields "decision_id") .decisionInvalid "scheduling#/decision_id"
  let grant_id ← boundedIdentifier (field fields "grant_id") .grantInvalid "scheduling#/grant_id"
  let term ← nonNegativeCount (field fields "term") .inputInvalid "scheduling#/term"
  let expected_graph_revision ← nonNegativeCount (field fields "expected_graph_revision")
    .inputInvalid "scheduling#/expected_graph_revision"
  let graph_digest ← optional (fun value => need (digestText? value) (plain .inputInvalid))
    (field fields "graph_digest")
  let inputs_digest ← need (digestText? (field fields "inputs_digest"))
    (refusal .inputInvalid "scheduling#/inputs_digest"
      "a decision states the input digest it was made against")
  let trigger ← need (fieldD fields "trigger" (.str "approved_input")).str? (plain .inputInvalid)
  ensure (trigger != "") (plain .inputInvalid)
  let reason ← need (fieldD fields "reason" (.str "")).str? (plain .inputInvalid)
  ensure (reason.toList.length ≤ 8000) (plain .inputInvalid)
  let noActions := refusal .inputInvalid "scheduling#/actions" "a decision declares at least one action"
  let actions ← need (field fields "actions").list? noActions
  ensure (actions.length != 0) noActions
  ensure (actions.length ≤ 4000)
    (refusal .inputInvalid "scheduling#/actions" "submit further batches to add more work"
      [("maximum_actions", .int 4000)])
  let actions ← each (fun (action, index) => parseAction P action s!"scheduling#/actions/{index}")
    actions.zipIdx
  return { decision_id, grant_id, term, expected_graph_revision, graph_digest, inputs_digest,
           trigger, reason, actions }

-- Graph helpers

def neighbours (tasks : Dict String Task) (node : String) : List String :=
  match tasks.get? node with
  | some task => task.depends_on.filter tasks.contains
  | none => []

/-- The first dependency cycle in the effective task set, or none. -/
def dependencyCycle (tasks : Dict String Task) : Option (List String) :=
  let nodes := sorted tasks.keys
  match Dfs.search (neighbours tasks) (Dfs.rounds (neighbours tasks) nodes) nodes .empty with
  | .finished _ => none
  | .cycle cycle => some cycle
  | .exhausted => some []

def uncoveredObligations (effective all_tasks : Dict String Task) : List String :=
  let live := (effective.values.filter Task.live).flatMap Task.obligations
  let owed := all_tasks.values.filter fun task => !(task.live && effective.contains task.task_id)
  notIn live (owed.flatMap Task.obligations)

-- Expansions

inductive ExpansionState
  | opened
  | sealed
  deriving DecidableEq

def ExpansionState.text : ExpansionState → String
  | .opened => "open"
  | .sealed => "sealed"

structure Member where
  task_id : String
  revision : Option Nat
  (digest item_key : String)
  required_outcomes : List String
  required : Bool
  replaced : Option String

def Member.body (member : Member) : Json :=
  .object
    ([("task_id", .str member.task_id),
      ("revision", ofNat? member.revision),
      ("digest", .str member.digest),
      ("item_key", .str member.item_key),
      ("required_outcomes", ofTexts member.required_outcomes),
      ("required", .bool member.required)] ++
      present "replaced" (member.replaced.map .str))

structure Expansion where
  (expansion_id run_id grant_id : String)
  parent_task_id : Option String
  goal : String
  state : ExpansionState
  member_policy : Option Nat
  required_outcomes : List String
  members : Dict String Member
  coverage : Dict String (List String)
  sealed_at : Option Rat
  sealed_by_decision : Option String
  sealed_revision : Option Nat
  (created_revision batches : Nat)
  digest : String

def Expansion.body (expansion : Expansion) : Json :=
  .object
    [("schema_version", .str "karajan.expansion-set.v1"),
     ("expansion_id", .str expansion.expansion_id),
     ("run_id", .str expansion.run_id),
     ("grant_id", .str expansion.grant_id),
     ("parent_task_id", ofText? expansion.parent_task_id),
     ("goal", .str expansion.goal),
     ("state", .str expansion.state.text),
     ("member_policy", ofNat? expansion.member_policy),
     ("engine_member_cap", .null),
     ("required_outcomes", ofTexts expansion.required_outcomes),
     ("members", .object (expansion.members.entries.map fun e => (e.1, e.2.body))),
     ("coverage", .object (expansion.coverage.entries.map fun e => (e.1, ofTexts e.2))),
     ("sealed_at", ofTime? expansion.sealed_at),
     ("sealed_by_decision", ofText? expansion.sealed_by_decision),
     ("sealed_revision", ofNat? expansion.sealed_revision),
     ("created_revision", .int expansion.created_revision),
     ("batches", .int expansion.batches)]

def resealExpansion (P : Platform) (expansion : Expansion) : Expansion :=
  { expansion with digest := P.contentDigest expansion.body }

def expansionChanged (P : Platform) (expansion : Expansion) : Bool :=
  expansion.digest ≠ P.contentDigest expansion.body

/-- One expansion set: an open batch of members with a declared ceiling. -/
def expansionDocument (P : Platform) (expansion_id run_id grant_id : String)
    (parent_task_id : Option String) (goal : String) (created_revision : Nat)
    (required_outcomes : List String) (member_policy : Option Nat) : Expansion :=
  resealExpansion P {
    expansion_id, run_id, grant_id, parent_task_id, goal, member_policy, created_revision
    state := .opened
    required_outcomes := sorted required_outcomes
    members := .empty
    coverage := .empty
    sealed_at := none
    sealed_by_decision := none
    sealed_revision := none
    batches := 1
    digest := "" }

-- Revisions

structure RevisionTask where
  (task_id digest : String)
  state : TaskState
  required : Bool
  (depends_on required_outcomes : List String)

def RevisionTask.of (task : Task) : RevisionTask :=
  { task_id := task.task_id, digest := task.digest, state := task.state, required := task.required,
    depends_on := task.depends_on, required_outcomes := task.required_outcomes }

def RevisionTask.body (task : RevisionTask) : Json :=
  .object
    [("task_id", .str task.task_id),
     ("digest", .str task.digest),
     ("state", .str task.state.text),
     ("required", .bool task.required),
     ("depends_on", ofTexts task.depends_on),
     ("required_outcomes", ofTexts task.required_outcomes)]

structure GraphRevision where
  run_id : String
  (revision parent_revision : Nat)
  (parent_digest decision_id grant_id : String)
  grant_revision : Nat
  authorizing_grant_id : String
  authorizing_grant_depth : Nat
  (accepted_under user_authorization_id inputs_digest : String)
  (nodes_added nodes_superseded nodes_retired : List String)
  expansions : List (String × ExpansionState)
  tasks : List RevisionTask
  created_at : Rat
  digest : String

def GraphRevision.body (record : GraphRevision) : Json :=
  .object
    [("schema_version", .str "karajan.task-graph-revision.v1"),
     ("run_id", .str record.run_id),
     ("revision", .int record.revision),
     ("parent_revision", .int record.parent_revision),
     ("parent_digest", .str record.parent_digest),
     ("decision_id", .str record.decision_id),
     ("grant_id", .str record.grant_id),
     ("grant_revision", .int record.grant_revision),
     ("authorizing_grant_id", .str record.authorizing_grant_id),
     ("authorizing_grant_depth", .int record.authorizing_grant_depth),
     ("accepted_under", .str record.accepted_under),
     ("user_authorization_id", .str record.user_authorization_id),
     ("inputs_digest", .str record.inputs_digest),
     ("nodes_added", ofTexts record.nodes_added),
     ("nodes_superseded", ofTexts record.nodes_superseded),
     ("nodes_retired", ofTexts record.nodes_retired),
     ("expansions", .object (record.expansions.map fun e => (e.1, .str e.2.text))),
     ("tasks", .list (record.tasks.map RevisionTask.body)),
     ("task_count", .int record.tasks.length),
     ("created_at", .float record.created_at),
     ("model_calls", .int 0),
     ("physical_execution", .str "not_started")]

def taskOrder (one other : Task) : Prop := one.task_id ≤ other.task_id

instance : DecidableRel taskOrder := fun one other =>
  inferInstanceAs (Decidable (one.task_id ≤ other.task_id))

end Karajan.Scheduling
