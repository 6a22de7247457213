import Karajan.Scheduling.Decisions

/-!
# Claims and reports

A claim hands out one ready task, with every authority fact rechecked under the
write lock, and records its occupancy in the ledger. A report is what a
consumer says about its own execution; only a trusted terminal one releases the
occupancy.
-/

namespace Karajan.Scheduling

open Check

-- Admission

/-- Every ceiling in force along the grant chain, from the parents of `seen`'s
last grant upwards. -/
def parentCeilings (P : Platform) (tables : RunTables) : Nat → List String → Option String → Chk (List Nat)
  | _, _, none => .ok []
  | 0, _, some _ => .ok []
  | rounds + 1, seen, some parent_id =>
    if seen.contains parent_id then .ok []
    else do
      let parent ← grantRow P tables parent_id
      let rest ← parentCeilings P tables rounds (parent_id :: seen) parent.parent_grant_id
      return parent.resource_policy.max_active_claims.toList ++ rest

section
variable (P : Platform)

def gainCeilings (tables : RunTables) (grant : Grant) : Chk (List Nat) := do
  let rest ← parentCeilings P tables (chainRounds tables) [grant.grant_id] grant.parent_grant_id
  return grant.resource_policy.max_active_claims.toList ++ rest

def latestObservation (db : Db) (pool_id : String) : Option Observation :=
  let readings := db.resource_observations.entries.filter fun entry => entry.1.1 = pool_id
  (readings.foldl
    (fun latest entry =>
      match latest with
      | none => some entry
      | some best => if best.1.2 < entry.1.2 then some entry else some best)
    none).map Prod.snd

/-- Decide whether one claim fits, from durable facts read right now. -/
def admitClaim (db : Db) (key : RunKey) (grant : Grant) : Chk Admitted := do
  let pool_id := grant.resource_policy.pool_id
  let live := (ledgerOf db key).filter fun record => record.pool_id = pool_id && !record.released
  let occupied := live.length
  let consumed := live.foldl (fun consumed record => consumed + record.cost_per_claim) 0
  let ceilings ← gainCeilings P (db.runs key) grant
  let unknown (capacity : Option Int) (source : String) : Admitted :=
    { admitted := false, reason := some .capacityUnknown, pool_id, occupied, capacity,
      remaining := none, source }
  match db.resource_policies.get? pool_id with
  | none => return unknown none "none"
  | some policy =>
    let effective := ceilings.foldl min policy.max_concurrent_claims
    match latestObservation db pool_id with
    | none => return unknown (some effective) "none"
    | some observation =>
      let margin : Int := policy.safety_margin
      -- a used quantity is only meaningful against its own limit
      let remaining : Option (Option Int) :=
        match observation.metric, observation.amount, observation.limit with
        | .unknown, _, _ => none
        | .remaining, some amount, _ => some (some (max 0 (amount - margin)))
        | .remaining, none, _ => some none
        | .used, some amount, some limit => some (some (max 0 (limit - amount - margin)))
        | .used, _, _ => none
      match remaining with
      | none => return unknown (some effective) observation.source
      | some remaining =>
        let busy := effective ≤ occupied ||
          effective < consumed + grant.resource_policy.cost_per_claim ||
          remaining.any (· ≤ 0)
        return { admitted := !busy, reason := if busy then some .capacityBusy else none, pool_id,
                 occupied, capacity := some effective, remaining, source := observation.source }

-- Claiming

def claimFields : List String := ["claim_key", "task_id"]

def claimReplay (tables : RunTables) (command_key digest : String) : Chk (Option Claim) :=
  match tables.task_claims.get? command_key with
  | none => .ok none
  | some row => do
    ensure (row.digest = digest) (plain .idempotencyConflict)
    return some row.record

/-- The first claim made for a task, in order of the claims' keys. -/
def claimForTask (tables : RunTables) (task_id : String) : Option Claim :=
  ((tables.task_claims.entries.insertionSort byName).find? fun entry =>
    entry.2.record.task_id = task_id).map fun entry => entry.2.record

def notReady (task_id detail : String) (field : String × Json) : SchedulingError :=
  refusal .taskNotReady "claim#/task_id" detail [("task_id", .str task_id), field]

/-- Every fact of the task that has to hold before its grant is consulted. -/
def requireReady (tables : RunTables) (ledger : List Consumption)
    (tasks : Dict String Task) (task_id : String) (document : Task) : Chk Unit := do
  ensure (!List.contains [.completed, .failed, .cancelled, .superseded] document.state)
    (notReady task_id "that task is no longer claimable" ("state", .str document.state.text))
  let expansions ← expansionsOf P tables
  match (joinBlocked expansions tasks (resolvedVersions ledger)).get? task_id with
  | some reason =>
    .error (refusal .expansionNotSealed "claim#/task_id"
      "the expansion set this task depends on is still open"
      [("task_id", .str task_id), ("waiting_reason", .str reason.text)])
  | none =>
    match waitingReason P ledger document tasks none with
    | some reason =>
      .error (notReady task_id "the task is not ready to be handed out"
        ("waiting_reason", .str reason.text))
    | none => .ok ()

def requireAdmitted (db : Db) (key : RunKey) (task_id : String) (document : Task)
    (clock : Nat → Rat) : Chk (Grant × Admitted) := do
  let tables := db.runs key
  let grant ← grantRow P tables (document.grant_id.getD "")
  requireChainLive P tables grant (clock 0)
  ensure (!grantExpired grant (clock 1)) (plain .grantExpired)
  let admission ← admitClaim P db key grant
  match admission.reason with
  | none => .ok (grant, admission)
  | some code =>
    .error (refusal code "claim#/task_id" "the trusted resource facts do not admit this claim now"
      (("task_id", .str task_id) :: admission.fields))

def claimId (key : RunKey) (claim_key : String) : String :=
  "claim-" ++ takeText 24
    (P.contentDigest (.list [.str key.project_id, .str key.run_id, .str claim_key]))

def claimDocument (key : RunKey) (document : Task) (grant : Grant)
    (admission : Admitted) (principal : Principal) (claim_id : String) (now : Rat) : Claim :=
  let claim : Claim := {
    claim_id
    run_id := key.run_id
    task_id := document.task_id
    graph_revision := document.graph_revision
    grant_id := grant.grant_id
    grant_depth := grant.depth
    role_alias := document.role_alias
    role_ref := document.role_ref
    execution_kind_ref := document.execution_kind_ref
    model_ref := document.model_ref
    tool_refs := document.tool_refs
    output_contract_ref := document.output_contract_ref
    inputs := document.inputs
    inputs_digest := P.contentDigest (.object document.inputs)
    depends_on := document.depends_on
    write_zone := document.write_zone
    path_scope := document.path_scope
    required_outcomes := document.required_outcomes
    task_digest := document.digest
    claimed_by := principal.credential_id
    claim_kind := principal.kind
    claimed_at := now
    admission
    digest := "" }
  { claim with digest := P.contentDigest claim.body }

def claimedTask (document : Task) (principal : Principal) (claim_id : String) (now : Rat) : Task :=
  resealTask P { document with
    state := .claimed
    claim_id := some claim_id
    claimed_by := some principal.credential_id
    claimed_at := some now
    history := document.history ++
      [{ state := .claimed, at_time := some now, by_ref := principal.credential_id,
         graph_revision := document.graph_revision, extra := [("claim_id", .str claim_id)] }] }

end

@[simp] theorem claimedTask_claim_id :
    (claimedTask P document principal claim_id now).claim_id = some claim_id := rfl

def consumptionRecord (P : Platform) (key : RunKey) (claim_id task_id : String) (grant : Grant)
    (document : Task) (now : Rat) : Consumption :=
  let record : Consumption := {
    claim_id, task_id
    project_id := key.project_id
    run_id := key.run_id
    pool_id := grant.resource_policy.pool_id
    budget_ref := grant.resource_policy.budget_ref
    write_zone := document.write_zone
    task_digest := document.digest
    task_revision := document.revision
    root_grant_id := grant.root_grant_id
    grant_id := grant.grant_id
    grant_depth := grant.depth
    cost_per_claim := grant.resource_policy.cost_per_claim
    claimed_at := now
    outcome := none
    reconciled_by := none
    released_at := none
    digest := "" }
  { record with digest := P.contentDigest record.body }

def updateTask (tables : RunTables) (task_id : String) (document : Task) : RunTables :=
  { tables with
    scheduling_tasks := tables.scheduling_tasks.modify task_id fun _ => ⟨document.digest, document⟩ }

/-- Claim one ready task, rechecking every authority fact under the write lock. -/
def claim (P : Platform) (db : Db) (key : RunKey) (payload : Json) (principal : Principal)
    (command_key : String) (clock : Nat → Rat) : Chk ((Claim × Bool) × Db) := do
  principal.requireRoute .claim
  principal.requireRun key.run_id
  let fields ← requireFields payload claimFields "claim#/payload"
  let claim_key ← boundedIdentifier (field fields "claim_key") .inputInvalid "claim#/claim_key"
  let task_id ← boundedIdentifier (field fields "task_id") .taskNotFound "claim#/task_id"
  let digest := P.contentDigest (.list
    [.str "scheduling.claim", .str key.project_id, .str key.run_id, .str claim_key, .str task_id])
  owned P db key.project_id
  let tables := db.runs key
  match ← claimReplay tables command_key digest with
  | some claim => return ((claim, false), db)
  | none => do
    let _ ← runRow P tables
    let tasks ← tasksOf P tables
    let document ← need (tasks.get? task_id) (plain .taskNotFound)
    match if document.state = .claimed then claimForTask tables task_id else none with
    | some existing => return ((existing, false), db)
    | none => do
      requireReady P tables (ledgerOf db key) tasks task_id document
      let (grant, admission) ← requireAdmitted P db key task_id document clock
      let now := clock 1
      let claim_id := claimId P key claim_key
      let claim := claimDocument P key document grant admission principal claim_id now
      let tables := updateTask tables task_id (claimedTask P document principal claim_id now)
      let claims ← insertRow tables.task_claims command_key ⟨digest, claim⟩
      let ledger ← insertRow db.budget_consumption claim_id
        (consumptionRecord P key claim_id task_id grant document now)
      return ((claim, true),
        { db.setRun key { tables with task_claims := claims } with budget_consumption := ledger })

-- Reporting

def reportFields : List String :=
  ["outcome", "evidence_ref", "attempt_ref", "note", "usage", "claim_key"]

structure ExecutionReport where
  outcome : Reported
  evidence_ref : String
  attempt_ref : Option String
  note : String

def readReport (payload : Json) : Chk ExecutionReport := do
  let fields ← requireFields payload reportFields "task#/report"
  let outcome ← need ((field fields "outcome").str?.bind Reported.ofText?)
    (refusal .inputInvalid "task#/report/outcome" "a reported outcome is one of the declared states")
  let noEvidence := refusal .evidenceRefRequired "task#/report/evidence_ref"
    "a report names the evidence it is based on"
  let evidence_ref ← need (field fields "evidence_ref").str? noEvidence
  ensure (1 ≤ evidence_ref.toList.length && evidence_ref.toList.length ≤ 256) noEvidence
  let note ← need (fieldD fields "note" (.str "")).str? (plain .inputInvalid)
  ensure (note.toList.length ≤ 8000) (plain .inputInvalid)
  let attempt_ref ← optional (fun value => need (value.str?.filter (· != "")) (plain .inputInvalid))
    (field fields "attempt_ref")
  return { outcome, evidence_ref, attempt_ref, note }

def reconciled (task : Task) : Bool := task.reconciliation_outcome.any terminalOutcomes.contains

/-- The control-plane state a report leaves. A trusted one says it; an untrusted
ending keeps the task claimed unless the ending was already reconciled. -/
def reportedState (document : Task) (trusted : Bool) (outcome : Reported) : TaskState :=
  if trusted then
    match outcome with
    | .unknown => .unknown
    | .completed => .completed
    | .failed => .failed
    | .cancelled => .cancelled
    | .started => document.state
  else if terminalOutcomes.contains outcome && !reconciled document then .claimed
  else document.state

def reportedTask (P : Platform) (document : Task) (report : ExecutionReport) (principal : Principal)
    (trusted : Bool) (now : Rat) : Task :=
  let state := reportedState document trusted report.outcome
  resealTask P { document with
    state
    reports := document.reports ++
      [{ reported_at := now, reported_by := principal.credential_id,
         reporter_kind := principal.kind, outcome := report.outcome,
         evidence_ref := report.evidence_ref, attempt_ref := report.attempt_ref,
         note := report.note }]
    attempt_ref := if report.attempt_ref.isSome then report.attempt_ref else document.attempt_ref
    reported_state := some report.outcome
    untrusted_observations :=
      some (document.untrusted_observations.getD 0 + if trusted then 0 else 1)
    reconciled_at := if trusted then some now else document.reconciled_at
    reconciled_by := if trusted then some principal.credential_id else document.reconciled_by
    reconciliation_outcome :=
      if trusted then some report.outcome else document.reconciliation_outcome
    reconciliation_required := document.reconciliation_required ||
      (!trusted && terminalOutcomes.contains report.outcome && !reconciled document)
    history := document.history ++
      [{ state, at_time := some now, by_ref := principal.credential_id,
         graph_revision := document.graph_revision
         extra := [("reported", .bool true), ("reported_outcome", .str report.outcome.text),
                   ("verified_by_engine", .bool false)] }] }

section
@[simp] theorem reportedTask_state :
    (reportedTask P document report principal trusted now).state =
      reportedState document trusted report.outcome := rfl

@[simp] theorem reportedTask_claim_id :
    (reportedTask P document report principal trusted now).claim_id = document.claim_id := rfl

@[simp] theorem reportedTask_reconciliation_outcome :
    (reportedTask P document report principal trusted now).reconciliation_outcome =
      if trusted then some report.outcome else document.reconciliation_outcome := rfl

end

def Consumption.release (P : Platform) (record : Consumption) (outcome : Reported)
    (reconciled_by : String) (now : Rat) : Consumption :=
  let record := { record with
    outcome := some outcome, reconciled_by := some reconciled_by, released_at := some now }
  { record with digest := P.contentDigest record.body }

/-- Release the occupancy one reconciling terminal report ends. The row stays:
only `released_at` moves, once. -/
def releaseConsumption (P : Platform) (ledger : Dict String Consumption) (claim_id : String)
    (outcome : Reported) (reconciled_by : String) (now : Rat) : Dict String Consumption :=
  match ledger.get? claim_id with
  | none => ledger
  | some record =>
    if record.released then ledger
    else ledger.put claim_id (record.release P outcome reconciled_by now)

/-- A protocol credential carries the runs it was issued for; a user session's
authority is ownership of the project. -/
def requireReporter (principal : Principal) (run_id : String) : Chk Unit :=
  if principal.isUser then .ok () else principal.requireRun run_id

/-- Record what an execution consumer, or the run's owner, reports about one
claimed task. -/
def reportExecution (P : Platform) (db : Db) (key : RunKey) (task_id : String) (payload : Json)
    (principal : Principal) (trusted : Bool) (now : Rat) : Chk (Task × Db) := do
  principal.requireRoute (if trusted then .reconcile else .observeTask)
  requireReporter principal key.run_id
  let report ← readReport payload
  owned P db key.project_id
  let tables := db.runs key
  let _ ← runRow P tables
  let tasks ← tasksOf P tables
  let document ← need (tasks.get? task_id) (plain .taskNotFound)
  let claim_id ← need document.claim_id
    (refusal .taskNotClaimed "task#/task_id" "only a claimed task can be reported on")
  ensure (trusted || document.claimed_by = some principal.credential_id)
    (refusal .taskNotOwned "task#/task_id" "this consumer does not hold that claim"
      [("task_id", .str task_id)])
  let updated := reportedTask P document report principal trusted now
  let ledger :=
    if trusted && !reconciled document && terminalOutcomes.contains report.outcome then
      releaseConsumption P db.budget_consumption claim_id report.outcome principal.credential_id now
    else db.budget_consumption
  return (updated,
    { db.setRun key (updateTask tables task_id updated) with budget_consumption := ledger })

end Karajan.Scheduling
