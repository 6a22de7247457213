import Karajan.Scheduling.Graph

/-!
# The durable tables

One database holds every project's runs. A run's rows are kept together, as
every statement on them names the project and the run. A table is a dictionary
from its primary key; the rows it returns come in the order they were inserted.
-/

namespace Karajan.Scheduling

open Check
open Json (ofTexts ofNat? ofText?)

structure Row (ρ : Type) where
  digest : String
  record : ρ

/-- A workflow run. What no rule here reads of it is kept in `rest`. -/
structure RunRecord where
  (run_id inputs_digest : String)
  required_outcomes : List String
  (delivery_kind authorization_id : String)
  definitions : Definitions
  rest : Fields
  digest : String

def ExecutionKind.body (kind : ExecutionKind) : Json :=
  .object
    [("inputs", ofTexts kind.inputs),
     ("required_inputs", ofTexts kind.required_inputs),
     ("outputs", ofTexts kind.outputs)]

def Definitions.body (definitions : Definitions) : Json :=
  .object
    [("role_refs", .object (definitions.role_refs.entries.map fun e => (e.1, .str e.2))),
     ("execution_kinds", .object (definitions.execution_kinds.entries.map fun e => (e.1, e.2.body))),
     ("contracts", ofTexts definitions.contracts)]

def RunRecord.body (record : RunRecord) : Json :=
  .object
    ([("run_id", .str record.run_id),
      ("inputs_digest", .str record.inputs_digest),
      ("required_outcomes", ofTexts record.required_outcomes),
      ("delivery_kind", .str record.delivery_kind),
      ("authorization_id", .str record.authorization_id),
      ("definitions", record.definitions.body)] ++ record.rest)

structure DecisionReceipt where
  (decision_id run_id grant_id : String)
  grant_depth : Nat
  role_instance : String
  term : Nat
  (credential_id trigger reason : String)
  (expected_graph_revision graph_revision : Nat)
  (graph_digest parent_graph_digest inputs_digest accepted_under authorizing_grant_id : String)
  authorizing_grant_depth : Nat
  user_authorization_id : String
  (nodes_added nodes_superseded nodes_retired : List String)
  sealed_expansions : List (String × List String)
  task_count : Nat
  outstanding_outcomes : List String
  accepted_at : Rat

inductive RejectionOutcome
  | conflict
  | rejected

def RejectionOutcome.text : RejectionOutcome → String
  | .conflict => "conflict"
  | .rejected => "rejected"

structure Rejection where
  outcome : RejectionOutcome
  reason_code : Code
  (decision_id run_id project_id command_key command_digest grant_id : String)
  term : Nat
  credential_id : String
  credential_kind : CredentialKind
  expected_graph_revision : Nat
  current_graph_revision : Option Nat
  inputs_digest : String
  recorded_at : Rat
  digest : String

def Rejection.body (record : Rejection) : Json :=
  .object
    [("schema_version", .str "karajan.scheduling-decision.v1"),
     ("outcome", .str record.outcome.text),
     ("reason_code", .str record.reason_code.text),
     ("decision_id", .str record.decision_id),
     ("run_id", .str record.run_id),
     ("project_id", .str record.project_id),
     ("command_key", .str record.command_key),
     ("command_digest", .str record.command_digest),
     ("grant_id", .str record.grant_id),
     ("term", .int record.term),
     ("credential_id", .str record.credential_id),
     ("credential_kind", .str record.credential_kind.text),
     ("expected_graph_revision", .int record.expected_graph_revision),
     ("current_graph_revision", ofNat? record.current_graph_revision),
     ("current_revision", ofNat? record.current_graph_revision),
     ("inputs_digest", .str record.inputs_digest),
     ("recorded_at", .float record.recorded_at),
     ("accepted", .bool false),
     ("graph_mutated", .bool false),
     ("model_calls", .int 0)]

/-- The outcome of one capacity check, with the reason it was made. -/
structure Admitted where
  admitted : Bool
  reason : Option Code
  pool_id : String
  occupied : Nat
  (capacity remaining : Option Int)
  source : String

def ofInt? : Option Int → Json
  | some n => .int n
  | none => .null

def Admitted.fields (admission : Admitted) : Fields := [("admitted", .bool admission.admitted),
   ("reason", .str ((admission.reason.map Code.text).getD "admitted")),
   ("pool_id", .str admission.pool_id),
   ("occupied", .int admission.occupied),
   ("capacity", ofInt? admission.capacity),
   ("remaining", ofInt? admission.remaining),
   ("observation_source", .str admission.source)]

structure Claim where
  (claim_id run_id task_id : String)
  graph_revision : Nat
  grant_id : String
  grant_depth : Nat
  (role_alias role_ref : Option String)
  execution_kind_ref : String
  model_ref : Option String
  tool_refs : List String
  output_contract_ref : String
  inputs : Fields
  inputs_digest : String
  depends_on : List String
  write_zone : String
  (path_scope required_outcomes : List String)
  (task_digest claimed_by : String)
  claim_kind : CredentialKind
  claimed_at : Rat
  admission : Admitted
  digest : String

def Claim.body (claim : Claim) : Json :=
  .object
    [("schema_version", .str "karajan.task-claim.v1"),
     ("claim_id", .str claim.claim_id),
     ("run_id", .str claim.run_id),
     ("task_id", .str claim.task_id),
     ("graph_revision", .int claim.graph_revision),
     ("grant_id", .str claim.grant_id),
     ("grant_depth", .int claim.grant_depth),
     ("role_alias", ofText? claim.role_alias),
     ("role_ref", ofText? claim.role_ref),
     ("execution_kind_ref", .str claim.execution_kind_ref),
     ("model_ref", ofText? claim.model_ref),
     ("tool_refs", ofTexts claim.tool_refs),
     ("output_contract_ref", .str claim.output_contract_ref),
     ("inputs", .object claim.inputs),
     ("inputs_digest", .str claim.inputs_digest),
     ("depends_on", ofTexts claim.depends_on),
     ("write_zone", .str claim.write_zone),
     ("path_scope", ofTexts claim.path_scope),
     ("required_outcomes", ofTexts claim.required_outcomes),
     ("task_digest", .str claim.task_digest),
     ("claimed_by", .str claim.claimed_by),
     ("claim_kind", .str claim.claim_kind.text),
     ("claimed_at", .float claim.claimed_at),
     ("attempt_ref", .null),
     ("admission", .object claim.admission.fields),
     ("physical_execution", .str "not_started"),
     ("verified_by_engine", .bool false),
     ("model_calls", .int 0)]

/-- The durable occupancy one accepted claim creates. Its `outcome` is none
while it stands as claimed. -/
structure Consumption where
  (claim_id project_id run_id task_id pool_id budget_ref write_zone task_digest : String)
  task_revision : Nat
  (root_grant_id grant_id : String)
  (grant_depth cost_per_claim : Nat)
  claimed_at : Rat
  outcome : Option Reported
  reconciled_by : Option String
  released_at : Option Rat
  digest : String

def Consumption.body (record : Consumption) : Json :=
  .object
    [("claim_id", .str record.claim_id),
     ("project_id", .str record.project_id),
     ("run_id", .str record.run_id),
     ("task_id", .str record.task_id),
     ("pool_id", .str record.pool_id),
     ("budget_ref", .str record.budget_ref),
     ("write_zone", .str record.write_zone),
     ("task_digest", .str record.task_digest),
     ("task_revision", .int record.task_revision),
     ("root_grant_id", .str record.root_grant_id),
     ("grant_id", .str record.grant_id),
     ("grant_depth", .int record.grant_depth),
     ("cost_per_claim", .int record.cost_per_claim),
     ("claimed_at", .float record.claimed_at),
     ("outcome", .str ((record.outcome.map Reported.text).getD "claimed")),
     ("reported_outcome", .null),
     ("reconciled_by", ofText? record.reconciled_by),
     ("released_at", Json.ofTime? record.released_at)]

inductive Metric
  | remaining
  | used
  | unknown

structure Observation where
  metric : Metric
  (amount limit : Option Nat)
  source : String

/-- The explicit ceiling a pool is admitted against, as far as admission reads it. -/
structure ResourcePolicy where
  (max_concurrent_claims safety_margin : Nat)

structure CredentialRow where
  (project_id run_id digest : String)
  record : Credential

structure Issuance where
  (digest credential_id : String)

@[ext]
structure RunKey where
  (project_id run_id : String)
  deriving DecidableEq

/-- The rows of one run. A grant is only ever written at revision 1 and its
current pointer beside it, so one row stands for both. -/
structure RunTables where
  workflow_run : Option RunRecord := none
  scheduler_grants : Dict String Grant := .empty
  scheduling_decisions : Dict String (Row DecisionReceipt) := .empty
  scheduling_decision_rejections : Dict String (Row Rejection) := .empty
  task_graph_revisions : Dict Nat (Row GraphRevision) := .empty
  task_graph_current : Option Nat := none
  scheduling_tasks : Dict String (Row Task) := .empty
  task_expansions : Dict String Expansion := .empty
  scheduling_task_versions : Dict (String × Nat) (Row Task) := .empty
  task_claims : Dict String (Row Claim) := .empty

/-- The database. A project is listed with its owner, where it has one. -/
structure Db where
  projects : Dict String (Option String)
  runs : RunKey → RunTables := fun _ => {}
  workflow_run_keys : Dict (String × String) (Row String) := .empty
  scheduling_credentials : Dict String CredentialRow := .empty
  credential_issuances : Dict (String × String) Issuance := .empty
  budget_consumption : Dict String Consumption := .empty
  resource_observations : Dict (String × Nat) Observation := .empty
  resource_policies : Dict String ResourcePolicy := .empty

def Db.setRun (db : Db) (key : RunKey) (tables : RunTables) : Db :=
  { db with runs := fun key' => if key' = key then tables else db.runs key' }

section
variable {db : Db}

theorem Db.setRun_runs : (db.setRun key tables).runs key' = if key' = key then tables else db.runs key' := rfl

@[simp] theorem Db.setRun_runs_self : (db.setRun key tables).runs key = tables := by simp [setRun_runs]

theorem Db.setRun_runs_of_ne (h : key' ≠ key) : (db.setRun key tables).runs key' = db.runs key' := by
  simp [setRun_runs, h]

@[simp] theorem Db.setRun_same : db.setRun key (db.runs key) = db := by
  have h : (fun key' => if key' = key then db.runs key else db.runs key') = db.runs := by
    funext key'
    split
    case isTrue h => rw [h]
    · rfl
  simp only [Db.setRun, h]

theorem Db.setRun_frame (f : RunTables → α) (h : f tables = f (db.runs key)) :
    f ((db.setRun key tables).runs key') = f (db.runs key') := by
  rw [Db.setRun_runs]
  split
  case isTrue hk => rw [h, hk]
  · rfl

end

/-- The refusal an integrity error of the database is reported as. -/
def integrityError : SchedulingError :=
  { code := .stateUnavailable, fields := [("detail", .str "IntegrityError")] }

def insertRow [DecidableEq κ] (table : Dict κ ν) (k : κ) (v : ν) : Chk (Dict κ ν) := do
  ensure (!table.contains k) integrityError
  return table.put k v

theorem insertRow_ok [DecidableEq κ] {table table' : Dict κ ν} :
    insertRow table k v = .ok table' ↔ table.get? k = none ∧ table' = table.put k v := by
  simp only [insertRow, bind_ok, ensure_ok, pure_ok, Dict.contains, Bool.not_eq_true',
    Option.isSome_eq_false_iff, Option.isNone_iff_eq_none]
  constructor
  · rintro ⟨_, h, rfl⟩; exact ⟨h, rfl⟩
  · rintro ⟨h, rfl⟩; exact ⟨(), h, rfl⟩

def owned (P : Platform) (db : Db) (project_id : String) (principal : String := "owner") : Chk Unit := do
  let chars := project_id.toList
  ensure (1 ≤ chars.length && chars.length ≤ 256 && !chars.any P.isspace) (plain .projectNotFound)
  let owner ← need (db.projects.get? project_id) (plain .projectNotFound)
  ensure (owner = some principal) (plain .projectNotFound)

def runRow (P : Platform) (tables : RunTables) : Chk RunRecord := do
  let record ← need tables.workflow_run (plain .runNotFound)
  ensure (record.digest = P.contentDigest record.body) (plain .runRecordChanged)
  return record

def requireFields (value : Json) (allowed : List String) (pointer : String) : Chk Fields := do
  let fields ← need value.object? (refusal .inputInvalid pointer "expected an object")
  let unknown := outside fields allowed
  ensure (unknown.length == 0) (unknownFields .inputInvalid pointer unknown)
  return fields

/-- A list of distinct non-empty texts, absent for none, of any length. -/
def storeTextList (value : Json) (code : Code) (pointer : String) : Chk (List String) :=
  match value with
  | .null => .ok []
  | _ => do
    let items ← need (texts? value) (refusal code pointer "a list of identifiers is required")
    ensure items.Nodup (refusal code pointer "each entry appears once")
    return items

end Karajan.Scheduling
