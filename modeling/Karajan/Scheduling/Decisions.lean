import Karajan.Scheduling.GrantStore
import Karajan.Scheduling.Planning

/-!
# Submitting decisions

A decision's durable work is one transaction that can roll back. A refused
decision leaves evidence without leaving a partial graph: the transaction rolls
back around the refusal, and the receipt is written afterwards in a transaction
of its own.
-/

namespace Karajan.Scheduling

open Check

/-- Why a decision's transaction rolled back: a refusal adjudicated now, or one
that is on record and replayed with its original facts. -/
inductive Refused
  | adjudicated (error : SchedulingError)
  | replayed (record : Rejection)

abbrev Decide := Except Refused

def adjudicate (check : Chk α) : Decide α :=
  match check with
  | .ok a => .ok a
  | .error error => .error (.adjudicated error)

theorem adjudicate_ok {check : Chk α} : adjudicate check = .ok a ↔ check = .ok a := by
  cases check
  · exact ⟨fun h => (nomatch h), fun h => (nomatch h)⟩
  · simp [adjudicate]

/-- A command that is already on record is answered with its own outcome. -/
def decisionReplay (tables : RunTables) (command_key digest : String) : Decide (Option DecisionReceipt) :=
  match tables.scheduling_decisions.get? command_key with
  | some row =>
    if row.digest = digest then .ok (some row.record)
    else .error (.adjudicated (plain .idempotencyConflict))
  | none =>
    match tables.scheduling_decision_rejections.get? command_key with
    | none => .ok none
    | some refused =>
      if refused.digest = digest then .error (.replayed refused.record)
      else .error (.adjudicated (plain .idempotencyConflict))

def unchangedTask (P : Platform) (row : Row Task) : Bool :=
  !taskChanged P row.record && row.record.digest = row.digest

def tasksOf (P : Platform) (tables : RunTables) : Chk (Dict String Task) := do
  ensure (tables.scheduling_tasks.values.all (unchangedTask P)) (plain .taskRecordChanged)
  return tables.scheduling_tasks.mapValues fun _ row => row.record

def expansionsOf (P : Platform) (tables : RunTables) : Chk (Dict String Expansion) := do
  ensure (tables.task_expansions.values.all fun expansion => !expansionChanged P expansion)
    (plain .expansionRecordChanged)
  return tables.task_expansions

def revisionConflict (current_revision : Nat) (diagnostics : List Diagnostic := []) :
    SchedulingError :=
  { code := .graphRevisionConflict, current_revision := some current_revision, diagnostics }

def requireBase (tables : RunTables) (parsed : ParsedDecision) : Chk Nat := do
  let current := tables.task_graph_current.getD 0
  ensure (parsed.expected_graph_revision = current)
    (revisionConflict current
      [located .graphRevisionConflict "scheduling#/expected_graph_revision"
        "the decision was made against a different graph revision"])
  ensure (match parsed.graph_digest with
      | none => true
      | some stated =>
        current = 0 || (tables.task_graph_revisions.get? current).any fun head => head.digest = stated)
    (revisionConflict current)
  return current

def requirePrincipal (grant : Grant) (parsed : ParsedDecision) (principal : Principal) : Chk Unit := do
  ensure (match principal.grant_id with | none => true | some id => id = grant.grant_id)
    (plain .grantNotFound)
  -- an empty role instance stands for none
  ensure (match principal.role_instance with
      | none => true
      | some role => role = "" || grant.role_instance = role)
    (refusal .credentialSubjectMismatch "grant#/role_instance"
      "this credential does not act for that role instance")
  ensure (parsed.term = principal.term)
    (refusal .grantTermStale "grant#/term" "the credential was issued for the grant's current term"
      [("current_term", .int principal.term)])

-- Committing

/-- Archive the versions a decision produced of one task; a version already
archived stays. -/
def archiveVersions (versions : Dict (String × Nat) (Row Task)) (name : String) (pinned : List Task) :
    Dict (String × Nat) (Row Task) :=
  pinned.foldl
    (fun versions version => versions.putNew (name, version.revision) ⟨version.digest, version⟩)
    versions

/-- What of a task is archived: the versions the decision produced, else the task as it is. -/
def pinnedVersions (plan : Plan) (name : String) (document : Task) : List Task :=
  match plan.versions.get? name with
  | some [] | none => [document]
  | some versions => versions

def byName (one other : String × α) : Prop := one.1 ≤ other.1

instance : DecidableRel (byName (α := α)) := fun one other =>
  inferInstanceAs (Decidable (one.1 ≤ other.1))

def writeTasks (plan : Plan) (tasks : Dict String (Row Task)) : Dict String (Row Task) :=
  (plan.working.entries.insertionSort byName).foldl
    (fun tasks entry => tasks.put entry.1 ⟨entry.2.digest, entry.2⟩) tasks

def writeVersions (plan : Plan) (versions : Dict (String × Nat) (Row Task)) : Dict (String × Nat) (Row Task) :=
  (plan.working.entries.insertionSort byName).foldl
    (fun versions entry =>
      archiveVersions versions entry.1 (pinnedVersions plan entry.1 entry.2))
    versions

def writeExpansions (plan : Plan) (expansions : Dict String Expansion) : Dict String Expansion :=
  (plan.expansions.entries.insertionSort byName).foldl
    (fun expansions entry => expansions.put entry.1 entry.2) expansions

section
variable (P : Platform)

/-- The immutable revision record, with a digest over the effective task set. -/
def graphDocument (run_id : String) (plan : PlannedDecision) (parsed : ParsedDecision)
    (grant : Grant) (parent_revision : Nat) (parent_digest : String) (now : Rat) : GraphRevision :=
  let document : GraphRevision := {
    run_id, parent_revision, parent_digest
    revision := plan.revision
    decision_id := parsed.decision_id
    grant_id := grant.grant_id
    grant_revision := grant.revision
    authorizing_grant_id := grant.grant_id
    authorizing_grant_depth := grant.depth
    accepted_under := "accepted_under_grant"
    user_authorization_id := grant.root_authorization_id
    inputs_digest := parsed.inputs_digest
    nodes_added := plan.nodes_added
    nodes_superseded := plan.nodes_superseded
    nodes_retired := plan.nodes_retired
    expansions := (plan.expansions.entries.insertionSort byName).map fun entry => (entry.1, entry.2.state)
    tasks := (plan.effective.values.insertionSort taskOrder).map RevisionTask.of
    created_at := now
    digest := "" }
  { document with digest := P.contentDigest document.body }

def decisionReceipt (plan : PlannedDecision) (parsed : ParsedDecision) (grant : Grant)
    (principal : Principal) (record : GraphRevision) (now : Rat) : DecisionReceipt :=
  { decision_id := parsed.decision_id
    run_id := record.run_id
    grant_id := grant.grant_id
    grant_depth := grant.depth
    role_instance := grant.role_instance
    term := grant.term
    credential_id := principal.credential_id
    trigger := parsed.trigger
    reason := parsed.reason
    expected_graph_revision := parsed.expected_graph_revision
    graph_revision := record.revision
    graph_digest := record.digest
    parent_graph_digest := record.parent_digest
    inputs_digest := parsed.inputs_digest
    accepted_under := record.accepted_under
    authorizing_grant_id := grant.grant_id
    authorizing_grant_depth := grant.depth
    user_authorization_id := grant.root_authorization_id
    nodes_added := plan.nodes_added
    nodes_superseded := plan.nodes_superseded
    nodes_retired := plan.nodes_retired
    sealed_expansions := plan.sealed.entries
    task_count := record.tasks.length
    outstanding_outcomes := plan.outstanding_outcomes
    accepted_at := now }

def parentDigest (tables : RunTables) (parent_revision : Nat) : String :=
  ((tables.task_graph_revisions.get? parent_revision).map fun parent => parent.record.digest).getD ""

/-- Write the revision, the receipt and the queue, or nothing at all. The
pointer moves only from the revision the decision was made against: a decision
that committed first wins. -/
def commitDecision (key : RunKey) (tables : RunTables) (plan : PlannedDecision)
    (parsed : ParsedDecision) (grant : Grant) (principal : Principal) (command_key digest : String)
    (current_revision : Nat) (now : Rat) : Chk (DecisionReceipt × RunTables) := do
  ensure (tables.task_graph_current = some current_revision) (revisionConflict current_revision)
  let record := graphDocument P key.run_id plan parsed grant current_revision
    (parentDigest tables current_revision) now
  let revisions ← insertRow tables.task_graph_revisions plan.revision ⟨record.digest, record⟩
  let receipt := decisionReceipt plan parsed grant principal record now
  let decisions ← insertRow tables.scheduling_decisions command_key ⟨digest, receipt⟩
  return (receipt, { tables with
    task_graph_current := some plan.revision
    scheduling_tasks := writeTasks plan.toPlan tables.scheduling_tasks
    scheduling_task_versions := writeVersions plan.toPlan tables.scheduling_task_versions
    task_expansions := writeExpansions plan.toPlan tables.task_expansions
    task_graph_revisions := revisions
    scheduling_decisions := decisions })

-- The decision's transaction

structure Submission where
  key : RunKey
  (command_key digest : String)
  parsed : ParsedDecision
  principal : Principal

/-- The plan of a decision that is not on record, from what the run holds. The
clock is read for the chain and for the plan. -/
def adjudicatePlan (tables : RunTables) (submission : Submission) (clock : Nat → Rat) :
    Chk (Grant × Nat × PlannedDecision) := do
  let parsed := submission.parsed
  let run ← runRow P tables
  let grant ← grantRow P tables parsed.grant_id
  requireChainLive P tables grant (clock 0)
  requirePrincipal grant parsed submission.principal
  let current_revision ← requireBase tables parsed
  ensure (parsed.inputs_digest = run.inputs_digest)
    (refusal .inputDigestMismatch "scheduling#/inputs_digest"
      "the decision was made against different Run inputs")
  let tasks ← tasksOf P tables
  let expansions ← expansionsOf P tables
  let plan ← planDecision P
    { run_id := run.run_id
      required_outcomes := run.required_outcomes
      grant, tasks
      decision_id := parsed.decision_id
      definitions := run.definitions
      producers := run.definitions.steps ++ tasks.keys
      revision := current_revision + 1
      now := clock 1 }
    expansions parsed.actions
  return (grant, current_revision, plan)

/-- One decision's durable work, in a single transaction that can roll back. -/
def decisionTransaction (db : Db) (submission : Submission) (clock : Nat → Rat) :
    Decide ((DecisionReceipt × Bool) × Db) := do
  let key := submission.key
  adjudicate (owned P db key.project_id)
  let tables := db.runs key
  match ← decisionReplay tables submission.command_key submission.digest with
  | some receipt => return ((receipt, false), db)
  | none => do
    let (grant, current_revision, plan) ←
      adjudicate (adjudicatePlan P tables submission clock)
    let (receipt, tables) ← adjudicate
      (commitDecision P key tables plan submission.parsed grant submission.principal
        submission.command_key submission.digest current_revision (clock 2))
    return ((receipt, true), db.setRun key tables)

-- Recording a refusal

def rejectionRecord (submission : Submission) (code : Code)
    (current_revision : Option Nat) (now : Rat) : Rejection :=
  let parsed := submission.parsed
  let record : Rejection := {
    outcome := if endsWith code.text "CONFLICT" then .conflict else .rejected
    reason_code := code
    decision_id := parsed.decision_id
    run_id := submission.key.run_id
    project_id := submission.key.project_id
    command_key := submission.command_key
    command_digest := submission.digest
    grant_id := parsed.grant_id
    term := parsed.term
    credential_id := submission.principal.credential_id
    credential_kind := submission.principal.kind
    expected_graph_revision := parsed.expected_graph_revision
    current_graph_revision := current_revision
    inputs_digest := parsed.inputs_digest
    recorded_at := now
    digest := "" }
  { record with digest := P.contentDigest record.body }

/-- Persist one refused decision, in its own committed transaction. The key's
earlier refusal is returned unchanged; a key that another command was refused
under is left alone; a failure here records nothing. -/
def recordRejection (db : Db) (submission : Submission) (code : Code)
    (current_revision : Option Nat) (now : Rat) : Option Rejection × Db :=
  match owned P db submission.key.project_id with
  | .error _ => (none, db)
  | .ok _ =>
    let tables := db.runs submission.key
    match tables.scheduling_decision_rejections.get? submission.command_key with
    | some existing =>
      if existing.digest = submission.digest then (some existing.record, db) else (none, db)
    | none =>
      let record := rejectionRecord P submission code current_revision now
      (some record, db.setRun submission.key { tables with
        scheduling_decision_rejections :=
          tables.scheduling_decision_rejections.putNew submission.command_key
            ⟨submission.digest, record⟩ })

-- Submitting

def readSubmission (key : RunKey) (grant_id : String) (payload : Json)
    (principal : Principal) (command_key : String) : Chk Submission := do
  principal.requireRoute .decision
  principal.requireRun key.run_id
  principal.requireGrant grant_id
  let parsed ← validateDecisionPayload P payload
  ensure (parsed.grant_id = grant_id) (plain .grantMismatch)
  let digest := P.contentDigest (.list
    [.str "scheduling.decision", .str key.project_id, .str key.run_id, .str grant_id, parsed.body])
  ensure (parsed.actions.length ≤ 4000) (plain .inputInvalid)
  return { key, command_key, digest, parsed, principal }

-- Readiness

inductive WaitingReason
  | expansionMemberOpen
  | joinExpansionOpen
  | joinMemberPending
  | dispatchHeld
  | dependencyUnknown
  | dependencyFailed
  | dependencyPending
  | writeZoneBusy

def WaitingReason.text : WaitingReason → String
  | .expansionMemberOpen => "expansion_member_open"
  | .joinExpansionOpen => "join_expansion_open"
  | .joinMemberPending => "join_member_pending"
  | .dispatchHeld => "dispatch_held"
  | .dependencyUnknown => "dependency_unknown"
  | .dependencyFailed => "dependency_failed"
  | .dependencyPending => "dependency_pending"
  | .writeZoneBusy => "write_zone_busy"

def ledgerOf (db : Db) (key : RunKey) : List Consumption := db.budget_consumption.values.filter fun record =>
    record.project_id = key.project_id && record.run_id = key.run_id

def Consumption.released (record : Consumption) : Bool := record.released_at.isSome

def terminalOutcomes : List Reported := [.completed, .failed, .cancelled]

/-- The frozen version each settled claim resolved, by task identity. -/
def resolvedVersions (ledger : List Consumption) : Dict String (Nat × String) :=
  .ofList <| (ledger.filter fun record =>
      record.released && record.reconciled_by.isSome &&
        record.outcome.any terminalOutcomes.contains).map
    fun record => (record.task_id, (record.task_revision, record.task_digest))

/-- A required member of a sealed set whose pinned version has no completed
result yet. -/
def pendingMember (tasks : Dict String Task) (resolved : Dict String (Nat × String)) (joining : String)
    (member : Member) : Bool :=
  if member.task_id = joining || !member.required then false
  else
    match tasks.get? member.task_id with
    | none => true
    | some holder =>
      holder.state ≠ .completed ||
        match member.revision, resolved.get? member.task_id with
        | some revision, some settled => settled.1 ≠ revision || settled.2 ≠ member.digest
        | _, _ => true

def joinReason (tasks : Dict String Task) (resolved : Dict String (Nat × String)) (task : Task)
    (joined : Expansion) : Option WaitingReason :=
  if joined.state ≠ .sealed then some .joinExpansionOpen
  else if joined.members.values.any (pendingMember tasks resolved task.task_id) then
    some .joinMemberPending
  else none

/-- The members of open sets, each held until its set is sealed. -/
def openMembers (expansions : Dict String Expansion) : Dict String WaitingReason :=
  (expansions.values.filter fun expansion => expansion.state ≠ .sealed).foldl
    (fun blocked expansion =>
      expansion.members.keys.foldl (fun blocked member => blocked.putNew member .expansionMemberOpen)
        blocked)
    .empty

/-- Tasks held back by an expansion set, with the reason each one is held. -/
def joinBlocked (expansions : Dict String Expansion) (tasks : Dict String Task)
    (resolved : Dict String (Nat × String)) : Dict String WaitingReason :=
  tasks.values.foldl
    (fun blocked task =>
      task.joins.foldl
        (fun blocked reference =>
          match (expansions.get? reference).bind (joinReason tasks resolved task) with
          | some reason => blocked.put task.task_id reason
          | none => blocked)
        blocked)
    (openMembers expansions)

/-- The first dependency that is not complete, by what it lacks. -/
def dependencyReason (tasks : Dict String Task) : List String → Option WaitingReason
  | [] => none
  | dependency :: rest =>
    match tasks.get? dependency with
    | none => some .dependencyUnknown
    | some other =>
      match other.state with
      | .completed => dependencyReason tasks rest
      | .failed | .cancelled | .superseded | .unknown => some .dependencyFailed
      | .queued | .blocked | .claimed => some .dependencyPending

def zoneHolder (ledger : List Consumption) (zone : String) (exclude : String) : Option String :=
  (ledger.find? fun record =>
    !record.released && record.task_id ≠ exclude && zonesOverlap P record.write_zone zone).map
    Consumption.task_id

def waitingReason (ledger : List Consumption) (task : Task) (tasks : Dict String Task)
    (join_blocked : Option WaitingReason) : Option WaitingReason :=
  match join_blocked with
  | some reason => some reason
  | none =>
    if task.dispatch ≠ .dispatched then some .dispatchHeld
    else
      match dependencyReason tasks task.depends_on with
      | some reason => some reason
      | none =>
        if (zoneHolder P ledger task.write_zone task.task_id).isSome then some .writeZoneBusy else none

end

end Karajan.Scheduling
