import Karajan.Execution.Host
import Mathlib.Algebra.Order.Ring.Unbundled.Rat
import Mathlib.Data.List.Sort

/-!
# Serial runs

The document a coordinator keeps for one run: its tasks, the attempts at them
in the order they were queued, an outbox of what the host is asked for and an
inbox of what it reported.
-/

namespace Karajan.Orchestration

open Check
open Execution (AttemptManifest Activation Role)

-- Approved material

structure ProfileRef where
  id : String
  revision : Int
deriving DecidableEq

structure Registration where
  id : String
  revision : Int
  model_family : String

structure Profile where
  id : String
  revision : Int
  required_permissions : List String
  binding : Execution.Binding

structure PlannedTask where
  id : String
  role : Role
  required : Bool
  (paths depends_on : List String)

structure Budget where
  id : String
  max_total_attempts : Nat
  max_duration_seconds : Rat

structure Limits where
  (max_quality_repair_rounds max_infrastructure_retries_per_root_task : Nat)

structure Resources where
  revision : Int
  digest : String

structure Repository where
  (root base_sha : String)

/-- What a task is bound to: what was approved for it, as it was read. -/
structure Material where
  task : PlannedTask
  registration : Registration
  profile : Profile
  reviewers : List Registration
  plan_revision : Int
  checks : List String
  authorization_digest : String
  current_resources : Resources
  repository : Repository
  budget : Budget
  limits : Limits
  (effective_class input_sha256 : String)

structure PlanRow where
  plan_revision : Int
  affected : List String
  tasks : List PlannedTask

structure PlannerRun where
  (id project_id : String)
  (revision active_plan_revision : Int)
  plans : List PlanRow
  approvals : List Int

-- Tasks

inductive TaskState
  | queued
  | failed
  | candidateReady
  | checking
  | awaitingReview
  | completed
  | blocked
  | invalidating
  | invalidated
  | cancelled
deriving DecidableEq

structure CheckPolicy where
  id : String
  revision : Int
  environment_sha256 : String

structure ApprovedReviewer where
  profile_id : String
  profile_revision : Int
  (model_family qualification_ref : String)

structure Policy where
  id : String
  revision : Int
  checks : List CheckPolicy
  review_revision : Int
  review_environment_sha256 : String
  approved_reviewers : List ApprovedReviewer

structure Baseline where
  (id repository_identity base_sha : String)

structure Evidence where
  id : String
  passed : Bool

structure Task where
  id : String
  state : TaskState
  binding : Material
  baseline : Baseline
  profile_ref : ProfileRef
  policy : Policy
  (candidate_id subject_task_id : Option String)
  fixture_recipe : String
  invalidation_reason : Option String
  (check_evidence review_evidence : Option Evidence)

-- Attempts

inductive PhysicalState
  | prepared
  | running
  | exited
  | unknown
deriving DecidableEq

structure Snapshot where
  state : PhysicalState
  exit_code : Option Int
  /-- What else it reports, which is kept and not read. -/
  rest : Json

inductive Physical
  | notStarted
  | observed (snapshot : Snapshot)

inductive AttemptState
  | queued
  | running
  | unknown
  | failed
  | completed
  | blocked
  | invalidated
  | cancelled
deriving DecidableEq

inductive Stage
  | write
  | check
  | review
deriving DecidableEq

structure ActivationCheck where
  (run_revision plan_revision : Int)
  authorization_digest : String
  current_resources : Resources

structure Attempt where
  (id task_id root_task_id : String)
  fence : Int
  start_key : String
  state : AttemptState
  workspace : String
  manifest : AttemptManifest
  activation : Activation
  physical : Option Physical
  stage : Stage
  activation_check : Option ActivationCheck

def Attempt.active (a : Attempt) : Bool := a.state = .queued || a.state = .running || a.state = .unknown

def Attempt.occupied (a : Attempt) : Bool := a.state = .running || a.state = .unknown

-- Runs

inductive OutboxKind
  | start
  | invalidate
  | cancel
deriving DecidableEq

inductive OutboxState
  | pending
  | acknowledged
  | confirmedNotStarted
  | confirmed
  | unknown

structure OutboxRow where
  id : String
  kind : OutboxKind
  state : OutboxState
  attempt_id : String

structure InboxRow where
  (id attempt_id : String)
  physical : Option Physical
  result_accepted : Option Bool

structure Counters where
  total_attempts : Nat
  started_at : Rat
  max_total_attempts : Nat
  max_duration_seconds : Rat
  quality_repair_rounds : Nat
  roots : Dict String Nat
  (max_quality_repair_rounds max_infrastructure_retries_per_root_task : Nat)

def Counters.exhausted (c : Counters) : Bool := c.max_total_attempts ≤ c.total_attempts

def Counters.deadline (c : Counters) : Rat := c.started_at + c.max_duration_seconds

inductive RunState
  | blocked
  | queued
  | running
  | unknown
  | candidateReady
  | awaitingReview
  | paused
  | cancelling
  | cancellingUnknown
  | cancelled
  | invalidating
  | localGatePassed
  | awaitingTasks
  | integrationRequired
deriving DecidableEq

structure Run where
  run_id : String
  state : RunState
  reason_codes : List String
  attempts : List Attempt
  tasks : Dict String Task
  outbox : List OutboxRow
  inbox : List InboxRow
  (paused cancelled : Bool)
  before_pause_state : Option RunState
  counters : Option Counters
  /-- The worker tasks of the plan the run executes. -/
  execution_worker_tasks : Option (List String)
  execution_plan_revision : Option Int
  remaining_required_task_ids : Option (List String)

def Run.new (run_id : String) : Run where
  run_id := run_id
  state := .blocked
  reason_codes := []
  attempts := []
  tasks := .empty
  outbox := []
  inbox := []
  paused := false
  cancelled := false
  before_pause_state := none
  counters := none
  execution_worker_tasks := none
  execution_plan_revision := none
  remaining_required_task_ids := none

def Run.ordered (run : Run) : List Task := run.tasks.values.insertionSort fun t u => t.id ≤ u.id

def Run.modifyTask (run : Run) (task_id : String) (f : Task → Task) : Run :=
  { run with tasks := run.tasks.modify task_id f }

def settleFirst (p : OutboxRow → Bool) (state : OutboxState) : List OutboxRow → List OutboxRow
  | [] => []
  | row :: rest => if p row then { row with state } :: rest else row :: settleFirst p state rest

-- What the coordinator is given

structure Library where
  host : Execution.Library
  printable : Char → Bool
  digest : List String → String
  eventId : String → Option Physical → String

def Library.identifier (L : Library) (text : String) : Bool :=
  L.host.identifier text && text.toList.all L.printable

structure Fixture where
  (identity environment_sha256 : String)
  accepts : Profile → String → Bool
  workspace : String → String

def Fixture.policy (f : Fixture) (checks : List String) (reviewers : List Registration) : Option Policy :=
  if checks.all (fun check => check = "tests" || check = "independent_review") &&
      checks.contains "tests" && checks.contains "independent_review" then
    some {
      id := "fixed-local-fixture"
      revision := 1
      checks := [⟨"tests", 1, f.environment_sha256⟩]
      review_revision := 1
      review_environment_sha256 := f.environment_sha256
      approved_reviewers := reviewers.map fun reviewer =>
        ⟨reviewer.id, reviewer.revision, reviewer.model_family, "fixture:fixed-runtime-not-live-qualified"⟩ }
  else none

structure Cancellation where
  confirmed : Bool
  snapshot : Snapshot

def Cancellation.status (c : Cancellation) : OutboxState :=
  if c.confirmed then .confirmed else .unknown

structure Gate where
  local_gate_passed : Bool
  reasons : List String

inductive Verdict
  | passed
  | failed
  | inconclusive

structure ReviewRecord where
  operation : String
  synthetic : Bool
  files : List String
  author_reasoning_included : Bool
  verdict : Option Verdict

/-- What a command meets: the planner, the host, the candidate store and the clock. -/
structure World where
  /-- The coordinator's runner, none where it has none. -/
  fixture : Option Fixture
  run : PlannerRun
  /-- What is approved for a task now, or the code of what is not. -/
  material : String → ProfileRef → Except String Material
  attempt_id : String
  now : Rat
  /-- The host's observation of an attempt, none where it has no such attempt. -/
  inspect : String → Option Snapshot
  cancel : String → Cancellation
  baseline : Baseline
  gate : Task → Gate
  launch_run : PlannerRun
  launch_material : String → ProfileRef → Except String Material
  launch_now : Rat
  (safe_path workspace_exists : Bool)
  /-- What a start returns, or the reason it is denied for. -/
  start : Except String Snapshot
  denied : Snapshot
  candidate_id : String
  log : Option ReviewRecord
  evidence : Evidence
  review_gate : Gate
  review_run : PlannerRun

/-- What a command does outside of the coordinator's tables. -/
inductive Effect
  | controlled (attempt_id : String) (control : Execution.Control)
  | cancelled (attempt_id cancel_key : String)
  | prepared (manifest : AttemptManifest) (start_key : String)
  | started (start_key : String) (activation : Activation)
  | frozen (attempt_id : String)
  | checked (attempt_id : String) (exit_code : Int)
  | reviewed (attempt_id : String) (verdict : Verdict)

inductive Fault
  | identityInvalid
  | idempotencyConflict
  | notFound
  | runNotActive
  | runCancelled
  | taskAlreadyEnqueued
  | infrastructureFailureRequired
  | fixtureBindingUnsupported
  /-- What was approved is not what the task is bound to. -/
  | input (code : String)
  | rootRetryLimit
  | runAttemptLimit
  | runDurationLimit
  | reviewSubjectAmbiguous
  | checkPolicyUnsupported
  | contract
  /-- A row, a task or an observation that was expected is missing. -/
  | missing

end Karajan.Orchestration
