import Karajan.Planner.Documents

/-!
# Planning commands

Each command is one transaction on the runs. It is known by its principal and
its key: a command that was answered is answered the same again, and one that
is rejected leaves its rejection and nothing else. What the command reads from
outside, such as a new identity, the time or the project, comes with it.
-/

namespace Karajan.Planner

open Routing (Rulebook ProfileRef)
open Check

-- Requests

inductive CreateTerms
  | v1 (authorization : Authorization)
  | v2 (execution_policy : PolicyRef) (authorization : AuthorizationV2)

def CreateTerms.base : CreateTerms → Authorization
  | .v1 authorization => authorization
  | .v2 _ authorization => authorization.toAuthorization

def CreateTerms.versionTwo : CreateTerms → Bool
  | .v1 _ => false
  | .v2 _ _ => true

structure CreateRun where
  project_id : String
  project_revision : Nat
  configuration_digest : String
  participants : List Participant
  terms : CreateTerms

structure SubmitPlan where
  term : Nat
  intent_id : String
  expected_plan_revision : Nat
  plan : PlanDocument

structure ProposeHandoff where
  term : Nat
  expected_plan_revision : Nat
  candidate : String
  checkpoint : Checkpoint
  resource_impact : ResourceImpact
  expires_at : Rat

structure DecideHandoff where
  (handoff_id handoff_digest : String)
  term : Nat
  approve : Bool

inductive Request
  | create (request : CreateRun) (conversation_id : Option String)
  | planningIntent (run_id : String) (term : Nat)
  | attachReceipt (run_id intent_id receipt_ref : String)
  | submitPlan (run_id : String) (request : SubmitPlan)
  | approvePlan (run_id : String) (request : ApprovePlan)
  | proposeHandoff (run_id : String) (request : ProposeHandoff)
  | decideHandoff (run_id : String) (request : DecideHandoff)

def Request.runId? : Request → Option String
  | .create _ _ => none
  | .planningIntent run_id _ | .attachReceipt run_id _ _ | .submitPlan run_id _
  | .approvePlan run_id _ | .proposeHandoff run_id _ | .decideHandoff run_id _ => some run_id

-- The database

inductive Result
  | run (run : Run)
  | intent (intent : PlanningIntent)
  | plan (plan : StoredPlan)
  | approval (approval : Approval)
  | handoff (handoff : Handoff)

/-- A rejection is recorded; any other error rolls the whole transaction back. -/
inductive Fault
  | rejected (code : String)
  | crashed

def PlanError.fault : PlanError → Fault
  | .missing => .crashed
  | error => .rejected error.code

structure CommandRow where
  digest : String
  outcome : Except String Result

structure EventRow where
  run_id : Option String
  request : Request
  (principal command_key : String)
  at_time : Rat
  reason : Option String

structure Database where
  runs : Dict String Run
  commands : Dict (String × String) CommandRow
  events : List EventRow

/-- What is put in canonical JSON text to take its digest. -/
inductive Document
  | command (request : Request)
  | configuration (configuration : Configuration)
  | authorization (configuration_digest : String) (authorization : Authorization)
  | boundAuthorization (configuration_digest : String) (authorization : AuthorizationV2)
      (binding : Binding)
  | binding (binding : Binding)
  | plan (draft : PlanDraft)
  | ceiling (ceiling : Ceiling)
  | handoff (draft : HandoffDraft)

structure PlannerLibrary extends Library where
  digest : Document → String

variable (L : PlannerLibrary)

def identifier (text : String) : Bool :=
  0 < text.length && text.length ≤ 256 &&
  text.toList.all fun c => !L.numbers.isspace c && L.letters.isprintable c

-- Creating

structure Project where
  id : String
  revision : Nat
  (configuration_digest target_branch : String)
  offline_valid : Bool
  /-- What is left to qualify, none where the readiness cannot be told. -/
  qualification_pending : Option Bool

structure Projects where
  project : Project
  exported_revision : Nat
  configuration : Configuration
  policy : Except String ExecutionPolicy

def plannerGroups (versionTwo : Bool) (book : Rulebook) (person : Participant) : List String :=
  if versionTwo then
    (book.rules.filter fun rule => rule.when.role = .commander && (rule.when.purpose.isNone ||
      rule.when.purpose = some (if person.purpose = .advice then .advice else .lead))).flatMap
      (·.eligible_groups)
  else [if person.purpose = .advice then "adviser_qualified" else "commander_qualified"]

def validateCreation (request : CreateRun) (project : Project) (config : Configuration)
    (owner : String) : Except Fault Unit := do
  let names := request.participants.map Participant.principal
  let authorization := request.terms.base
  ensure (names.Nodup && owner ∉ names) (.rejected "PARTICIPANT_IDENTITY_INVALID")
  ensure (authorization.profile_refs.all (· ∈ config.approved_profile_refs))
    (.rejected "PROFILE_NOT_APPROVED")
  ensure (request.participants.all fun person => person.profile ∈ config.approved_profile_refs &&
    (plannerGroups request.terms.versionTwo config.rulebook.toRulebook person).any fun group =>
      person.profile ∈ config.rulebook.group group) (.rejected "PLANNER_PROFILE_NOT_APPROVED")
  (authorize L.toLibrary authorization authorization).mapError PlanError.fault
  ensure ("independent_review" ∈ authorization.checks) (.rejected "INDEPENDENT_REVIEW_REQUIRED")
  ensure (authorization.target_branch = project.target_branch) (.rejected "TARGET_BRANCH_NOT_APPROVED")
  ensure (some authorization.budget_ref = config.rulebook.resource_policy.run_budget_ref)
    (.rejected "RUN_BUDGET_NOT_APPROVED")

def resolvePolicy (request : CreateRun) (projects : Projects) : Except Fault Ceiling :=
  match request.terms with
  | .v1 authorization => .ok (.v1 authorization)
  | .v2 reference authorization => do
    let policy ← projects.policy.mapError .rejected
    ensure (policy.digest = reference.digest &&
      policy.configuration_digest = request.configuration_digest)
      (.rejected "EXECUTION_POLICY_BINDING_MISMATCH")
    return .v2 policy authorization

def validateCeiling (config : Configuration) : Ceiling → Except Fault Unit
  | .v1 _ => .ok ()
  | .v2 policy ceiling =>
    (validateAuthorization L.toLibrary ceiling ceiling policy config).mapError PlanError.fault

def newRun (request : CreateRun) (projects : Projects) (principal id : String) : Except Fault Run := do
  let project := projects.project
  ensure (project.revision = request.project_revision &&
    projects.exported_revision = project.revision &&
    project.configuration_digest = request.configuration_digest &&
    L.digest (.configuration projects.configuration) = request.configuration_digest)
    (.rejected "PROJECT_SNAPSHOT_CHANGED")
  ensure (project.offline_valid ||
    request.terms.versionTwo && project.qualification_pending = some true)
    (.rejected "CONFIGURATION_NOT_READY")
  let ceiling ← resolvePolicy request projects
  let leads := request.participants.filter (·.purpose = .lead)
  ensure (leads.length = 1) (.rejected "ONE_COMMANDER_REQUIRED")
  let lead ← need leads.head? .crashed
  validateCreation L request project projects.configuration principal
  validateCeiling L projects.configuration ceiling
  return {
    id := id
    revision := 1
    owner := principal
    project_id := project.id
    state := .planning
    configuration_snapshot := ⟨request.configuration_digest, projects.configuration⟩
    participants := request.participants
    authorization_ceiling := ceiling
    commander := { lead with term := 1, handoff_id := none }
    plans := []
    approvals := []
    handoffs := []
    planning_intents := []
    active_plan_revision := none
    latest_plan_revision := 0 }

-- Operations on a run

def checkTerm (run : Run) (term : Nat) : Except Fault Unit :=
  ensure (term = run.commander.term) (.rejected "COMMANDER_TERM_STALE")

def checkOwner (run : Run) (principal : String) : Except Fault Unit :=
  ensure (principal = run.owner) (.rejected "USER_DECISION_REQUIRED")

def amendFirst (p : α → Bool) (f : α → α) : List α → List α
  | [] => []
  | a :: rest => if p a then f a :: rest else a :: amendFirst p f rest

def planningIntent (term : Nat) (principal id : String) (at_time : Rat) (run : Run) :
    Except Fault (Result × Run) := do
  checkTerm run term
  let participant ← need (run.participants.find? (·.principal = principal))
    (.rejected "PLANNING_ACTOR_NOT_ACTIVE")
  ensure (principal = run.commander.principal || participant.purpose = .advice)
    (.rejected "PLANNING_ACTOR_NOT_ACTIVE")
  let intent : PlanningIntent :=
    { id := id
      run_id := run.id
      term := term
      principal := principal
      profile := participant.profile
      budget_ref := run.configuration_snapshot.configuration.rulebook.resource_policy.planning_budget_ref
      receipt := none
      created_at := at_time }
  return (.intent intent, { run with planning_intents := run.planning_intents ++ [intent] })

def receiptBound (intent : PlanningIntent) (receipt_ref : String) (receipt : PlanningReceipt) : Bool :=
  receipt.receipt_ref = receipt_ref && receipt.run_id = intent.run_id && receipt.term = intent.term &&
  receipt.principal = intent.principal && receipt.profile = intent.profile &&
  receipt.budget_ref = intent.budget_ref && receipt.intent_id = intent.id

def PlanningIntent.attach (receipt : PlanningReceipt) (intent : PlanningIntent) : PlanningIntent :=
  { intent with receipt := some receipt }

def Run.attach (run : Run) (intent_id : String) (receipt : PlanningReceipt) : Run :=
  { run with
    planning_intents := amendFirst (·.id = intent_id) (·.attach receipt) run.planning_intents }

def attachReceipt (intent_id receipt_ref principal : String) (receipt : PlanningReceipt) (run : Run) :
    Except Fault (Result × Run) := do
  checkOwner run principal
  let intent ← need (run.planning_intents.find? (·.id = intent_id))
    (.rejected "PLANNING_INTENT_NOT_FOUND")
  checkTerm run intent.term
  ensure (receiptBound intent receipt_ref receipt) (.rejected "ADMISSION_BINDING_MISMATCH")
  ensure intent.receipt.isNone (.rejected "ADMISSION_ALREADY_ATTACHED")
  return (.intent (intent.attach receipt), run.attach intent_id receipt)

def checkProposal (run : Run) : PlanDocument → Ceiling → Except PlanError (Impact × Option Binding)
  | .v1 plan, .v1 ceiling => do
    validatePlan L.toLibrary plan ceiling
    let impact ← planImpact (.v1 plan) run
    return (impact, none)
  | .v2 plan, .v2 policy ceiling => do
    validatePlan L.toLibrary plan.base ceiling.toAuthorization
    let impact ← planImpact (.v2 plan) run
    let binding ← resolveBinding L.toLibrary ⟨policy, run.configuration_snapshot, ceiling⟩ plan
    return (impact, some binding)
  | _, _ => .error .missing

def authorizationDigest (configuration_digest : String) : PlanDocument → Option Binding → String
  | .v2 plan, some binding =>
    L.digest (.boundAuthorization configuration_digest plan.authorization binding)
  | plan, _ => L.digest (.authorization configuration_digest plan.base.authorization)

def PlanDraft.stored (draft : PlanDraft) : StoredPlan :=
  { draft with plan_digest := L.digest (.plan draft) }

/-- The guard of a planning execution may stop the submission before its checks, or after. -/
structure SubmissionGuard where
  (acquire recheck : Option Fault)

def passes (fault : Option Fault) : Except Fault Unit :=
  match fault with
  | some e => .error e
  | none => .ok ()

def submitPlan (request : SubmitPlan) (guard : SubmissionGuard) (principal : String) (run : Run) :
    Except Fault (Result × Run) := do
  ensure (request.plan.versionTwo = run.authorization_ceiling.versionTwo)
    (.rejected "RUN_PROTOCOL_VERSION_MISMATCH")
  checkTerm run request.term
  ensure (principal = run.commander.principal) (.rejected "ONLY_CURRENT_COMMANDER_CAN_SUBMIT")
  let intent ← need (run.planning_intents.find? (·.id = request.intent_id))
    (.rejected "PLANNING_INTENT_MISMATCH")
  ensure (intent.principal = principal && intent.term = request.term)
    (.rejected "PLANNING_INTENT_MISMATCH")
  ensure intent.admitted (.rejected "PLANNING_ADMISSION_REQUIRED")
  ensure (request.expected_plan_revision = run.latest_plan_revision) (.rejected "PLAN_REVISION_STALE")
  passes guard.acquire
  let (impact, binding) ← (checkProposal L run request.plan run.authorization_ceiling).mapError
    PlanError.fault
  let receipt ← need intent.receipt .crashed
  let draft : PlanDraft :=
    { plan_revision := run.latest_plan_revision + 1
      term := request.term
      submitted_by := principal
      intent_id := intent.id
      plan := request.plan
      configuration_digest := run.configuration_snapshot.digest
      authorization_digest := authorizationDigest L run.configuration_snapshot.digest request.plan binding
      provenance := receipt.provenance
      impact := impact
      routing := binding.map fun binding => ⟨binding, L.digest (.binding binding)⟩ }
  passes guard.recheck
  let stored := draft.stored L
  return (.plan stored, { run with
    plans := run.plans ++ [stored]
    latest_plan_revision := stored.plan_revision
    state := if run.active_plan_revision.isNone then .awaitingApproval else run.state })

def approvalBound (versionTwo : Bool) (request : ApprovePlan) (plan : StoredPlan)
    (configuration_digest : String) : Bool :=
  request.term = plan.term && request.plan_digest = plan.plan_digest &&
  request.authorization_digest = plan.authorization_digest &&
  request.configuration_digest = plan.configuration_digest &&
  request.configuration_digest = configuration_digest &&
  (!versionTwo || request.routing_digest = plan.routing.map RoutingBound.routing_digest)

def approvePlan (request : ApprovePlan) (principal id : String) (at_time : Rat) (run : Run) :
    Except Fault (Result × Run) := do
  ensure (request.routing_digest.isSome = run.authorization_ceiling.versionTwo)
    (.rejected "RUN_PROTOCOL_VERSION_MISMATCH")
  checkOwner run principal
  checkTerm run request.term
  ensure (request.plan_revision = run.latest_plan_revision) (.rejected "PLAN_REVISION_STALE")
  let plan ← need run.plans.getLast? (.rejected "PLAN_REVISION_STALE")
  ensure (approvalBound request.routing_digest.isSome request plan run.configuration_snapshot.digest)
    (.rejected "APPROVAL_BINDING_MISMATCH")
  ensure (run.active_plan_revision ≠ some plan.plan_revision) (.rejected "PLAN_ALREADY_APPROVED")
  let receipt : Approval :=
    { request with run_id := run.id, id := id, approved_by := principal, approved_at := at_time }
  return (.approval receipt, { run with
    approvals := run.approvals ++ [receipt]
    active_plan_revision := some plan.plan_revision
    state := .executing })

def handoffBinding (run : Run) : HandoffBinding where
  term := run.commander.term
  plan_revision := run.latest_plan_revision
  plan_digest := run.plans.getLast?.map StoredPlan.plan_digest
  active_plan_revision := run.active_plan_revision
  authorization_digest := match run.approvals.getLast? with
    | some approval => approval.authorization_digest
    | none => L.digest (.ceiling run.authorization_ceiling)
  configuration_digest := run.configuration_snapshot.digest

def Handoff.supersede (handoff : Handoff) : Handoff :=
  if handoff.state = .pending then { handoff with state := .superseded } else handoff

def proposeHandoff (request : ProposeHandoff) (principal id : String) (now later : Rat) (run : Run) :
    Except Fault (Result × Run) := do
  checkTerm run request.term
  ensure (principal = run.owner || principal = run.commander.principal)
    (.rejected "HANDOFF_PROPOSER_INVALID")
  ensure (request.expected_plan_revision = run.latest_plan_revision) (.rejected "PLAN_REVISION_STALE")
  let candidate ← need (run.participants.find? (·.principal = request.candidate))
    (.rejected "HANDOFF_CANDIDATE_NOT_APPROVED")
  ensure (candidate.purpose ≠ .advice && candidate.principal ≠ run.commander.principal)
    (.rejected "HANDOFF_CANDIDATE_NOT_APPROVED")
  ensure (some request.resource_impact.budget_ref =
    run.configuration_snapshot.configuration.rulebook.resource_policy.planning_budget_ref)
    (.rejected "HANDOFF_BUDGET_MISMATCH")
  ensure (now < request.expires_at && request.expires_at ≤ later + 86400)
    (.rejected "HANDOFF_EXPIRY_INVALID")
  let draft : HandoffDraft :=
    { id := id
      run_id := run.id
      candidate := candidate
      checkpoint := request.checkpoint
      resource_impact := request.resource_impact
      binding := handoffBinding L run
      expires_at := request.expires_at
      proposed_by := principal }
  let handoff : Handoff :=
    { draft with
      digest := L.digest (.handoff draft)
      state := .pending
      decided_by := none
      decided_at := none }
  return (.handoff handoff, { run with handoffs := run.handoffs.map Handoff.supersede ++ [handoff] })

def Handoff.decide (handoff : Handoff) (approve : Bool) (principal : String) (at_time : Rat) : Handoff :=
  { handoff with
    state := if approve then .approved else .rejected
    decided_by := some principal
    decided_at := some at_time }

def decideHandoff (request : DecideHandoff) (principal : String) (now later : Rat) (run : Run) :
    Except Fault (Result × Run) := do
  checkOwner run principal
  checkTerm run request.term
  let handoff ← need (run.handoffs.find? (·.id = request.handoff_id)) (.rejected "HANDOFF_NOT_FOUND")
  ensure (handoff.state = .pending && now < handoff.expires_at) (.rejected "HANDOFF_STALE")
  ensure (handoff.binding = handoffBinding L run) (.rejected "HANDOFF_CHECKPOINT_STALE")
  ensure (request.handoff_digest = handoff.digest) (.rejected "HANDOFF_DIGEST_MISMATCH")
  let handoffs := amendFirst (·.id = request.handoff_id)
    (·.decide request.approve principal later) run.handoffs
  let commander := if request.approve then
      { handoff.candidate with term := request.term + 1, handoff_id := some handoff.id }
    else run.commander
  return (.handoff (handoff.decide request.approve principal later),
    { run with handoffs := handoffs, commander := commander })

def executionReceipt (run_id execution_id binding_sha256 : String) (intent : PlanningIntent) :
    PlanningReceipt where
  receipt_ref := "planning-execution:" ++ execution_id
  authority_revision := binding_sha256
  run_id := run_id
  intent_id := intent.id
  term := intent.term
  principal := intent.principal
  profile := intent.profile
  budget_ref := intent.budget_ref
  state := .admitted
  provenance := .planningExecution

/-- The internal port of a planning execution attaches its own receipt, where there is none. -/
def planningExecution (intent_id execution_id binding_sha256 principal : String) (run : Run) :
    Except Fault (Option Run) := do
  checkOwner run principal
  let intent ← need (run.planning_intents.find? (·.id = intent_id))
    (.rejected "PLANNING_INTENT_NOT_FOUND")
  checkTerm run intent.term
  ensure (intent.principal = run.commander.principal) (.rejected "ONLY_CURRENT_COMMANDER_CAN_SUBMIT")
  let receipt := executionReceipt run.id execution_id binding_sha256 intent
  if intent.receipt.isNone then return some (run.attach intent_id receipt)
  ensure (intent.receipt = some receipt) (.rejected "PLANNING_EXECUTION_RECEIPT_CONFLICT")
  return none

-- Commands

abbrev Runs := Dict String Run

def Run.saved (run changed : Run) : Run := { changed with revision := run.revision + 1 }

/-- An operation on one run, which is saved under its next revision. -/
def onRun (run_id : String) (operation : Run → Except Fault (Result × Run)) (runs : Runs) :
    Except Fault (Result × Runs) := do
  ensure (identifier L run_id) (.rejected "COMMAND_IDENTITY_INVALID")
  let run ← need (runs.get? run_id) (.rejected "RUN_NOT_FOUND")
  let (result, changed) ← operation run
  return (result, runs.put run_id (run.saved changed))

/-- A new run is bound to its conversation in the same transaction. -/
def insertRun (run : Run) (conversation : Option String) (runs : Runs) : Except Fault (Result × Runs) := do
  ensure (!runs.contains run.id) .crashed
  passes (conversation.map .rejected)
  return (.run run, runs.put run.id run)

section
variable (db : Database) (request : Request) (principal key : String)

/-- What a command is answered with, and how it leaves the database. -/
def command (at_time : Rat) (operation : Runs → Except Fault (Result × Runs)) : Except Fault Result × Database :=
  let identity := L.digest (.command request)
  if !(request.runId?.all (identifier L) && identifier L principal && identifier L key) then
    (.error (.rejected "COMMAND_IDENTITY_INVALID"), db)
  else match db.commands.get? (principal, key) with
    | some row =>
      if row.digest ≠ identity then (.error (.rejected "IDEMPOTENCY_CONFLICT"), db)
      else (row.outcome.mapError .rejected, db)
    | none =>
      match operation db.runs with
      | .error .crashed => (.error .crashed, db)
      | .error (.rejected code) => (.error (.rejected code), {
          runs := db.runs
          commands := db.commands.put (principal, key) ⟨identity, .error code⟩
          events := db.events ++ [⟨request.runId?, request, principal, key, at_time, some code⟩] })
      | .ok (result, runs) => (.ok result, {
          runs := runs
          commands := db.commands.put (principal, key) ⟨identity, .ok result⟩
          events := db.events ++ [⟨request.runId?, request, principal, key, at_time, none⟩] })

/-- A command with what it is given from outside. A command that is stopped before its commit,
or whose process dies, is an interruption. -/
inductive Action
  | create (request : CreateRun) (conversation_id : Option String) (projects : Except Fault Projects)
      (conversation : Option String) (id : String)
  | planningIntent (run_id : String) (term : Nat) (id : String)
  | attachReceipt (run_id intent_id receipt_ref : String) (receipt : Except String PlanningReceipt)
  | submitPlan (run_id : String) (request : SubmitPlan) (guard : SubmissionGuard)
  | approvePlan (run_id : String) (request : ApprovePlan) (id : String)
  | proposeHandoff (run_id : String) (request : ProposeHandoff) (id : String) (later : Rat)
  | decideHandoff (run_id : String) (request : DecideHandoff) (later : Rat)
  | planningExecution (run_id intent_id execution_id binding_sha256 : String)
  | interrupted

structure Call where
  action : Action
  (principal key : String)
  now : Rat

/-- A command that was answered before is answered so before anything outside is asked. -/
def answered : Option (Except Fault Result) :=
  if !(identifier L principal && identifier L key) then
    some (.error (.rejected "COMMAND_IDENTITY_INVALID"))
  else (db.commands.get? (principal, key)).map fun row =>
    if row.digest ≠ L.digest (.command request) then .error (.rejected "IDEMPOTENCY_CONFLICT")
    else row.outcome.mapError .rejected

def executed (db : Database) (identities : List String) (run_id : String) : Except Fault Run := do
  ensure (identities.all (identifier L)) (.rejected "COMMAND_IDENTITY_INVALID")
  need (db.runs.get? run_id) (.rejected "RUN_NOT_FOUND")

/-- The port of a planning execution is no command: it leaves no record. -/
def execute (db : Database) (run_id intent_id execution_id binding_sha256 principal key : String) :
    Except Fault Result × Database :=
  match executed L db [run_id, intent_id, execution_id, binding_sha256, principal, key] run_id with
  | .error fault => (.error fault, db)
  | .ok run =>
    match planningExecution intent_id execution_id binding_sha256 principal run with
    | .error fault => (.error fault, db)
    | .ok none => (.ok (.run run), db)
    | .ok (some changed) =>
      (.ok (.run changed), { db with runs := db.runs.put run_id (run.saved changed) })

/-- A command that asks outside before its transaction, unless it was answered. -/
def prepared (at_time : Rat) (outside : Except Fault α) (operation : α → Runs → Except Fault (Result × Runs)) :
    Except Fault Result × Database :=
  match answered L db request principal key with
  | some answer => (answer, db)
  | none =>
    match outside with
    | .error fault => (.error fault, db)
    | .ok given => command L db request principal key at_time (operation given)

end

def perform (db : Database) (call : Call) : Except Fault Result × Database :=
  match call.action with
  | .create request conversation_id projects conversation id =>
    prepared L db (.create request conversation_id) call.principal call.key call.now
      (projects >>= (newRun L request · call.principal id)) (insertRun · conversation)
  | .planningIntent run_id term id =>
    command L db (.planningIntent run_id term) call.principal call.key call.now
      (onRun L run_id (planningIntent term call.principal id call.now))
  | .attachReceipt run_id intent_id receipt_ref receipt =>
    prepared L db (.attachReceipt run_id intent_id receipt_ref) call.principal call.key call.now
      (receipt.mapError .rejected)
      fun receipt => onRun L run_id (attachReceipt intent_id receipt_ref call.principal receipt)
  | .submitPlan run_id request guard =>
    command L db (.submitPlan run_id request) call.principal call.key call.now
      (onRun L run_id (submitPlan L request guard call.principal))
  | .approvePlan run_id request id =>
    command L db (.approvePlan run_id request) call.principal call.key call.now
      (onRun L run_id (approvePlan request call.principal id call.now))
  | .proposeHandoff run_id request id later =>
    command L db (.proposeHandoff run_id request) call.principal call.key call.now
      (onRun L run_id (proposeHandoff L request call.principal id call.now later))
  | .decideHandoff run_id request later =>
    command L db (.decideHandoff run_id request) call.principal call.key call.now
      (onRun L run_id (decideHandoff L request call.principal call.now later))
  | .planningExecution run_id intent_id execution_id binding_sha256 =>
    execute L db run_id intent_id execution_id binding_sha256 call.principal call.key
  | .interrupted => (.error .crashed, db)

end Karajan.Planner
