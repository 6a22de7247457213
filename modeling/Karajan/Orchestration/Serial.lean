import Karajan.Orchestration.Models

/-!
# The serial coordinator

Every command is one transaction over the document of a run. What it asks of
the host and of the candidate store happens while the transaction is open, and
stays when the transaction is rolled back.
-/

namespace Karajan.Orchestration

open Check
open Execution (AttemptManifest Activation Role)

-- Documents

def Run.modifyAttempt (run : Run) (id : String) (f : Attempt → Attempt) : Run :=
  { run with attempts := run.attempts.map fun a => if a.id = id then f a else a }

def Run.replace (run : Run) (attempt : Attempt) : Run := run.modifyAttempt attempt.id fun _ => attempt

def startKey (attempt_id : String) : String := "serial:" ++ attempt_id

def startRow (attempt : Attempt) : OutboxRow := ⟨attempt.start_key, .start, .pending, attempt.id⟩

def invalidateKey (attempt_id : String) : String := "invalidate:" ++ attempt_id

def Run.append (run : Run) (attempt : Attempt) : Run :=
  { run with
    attempts := run.attempts ++ [attempt]
    outbox := run.outbox ++ [startRow attempt] }

def Task.invalidate (t : Task) (code : String) : Task :=
  { t with state := .invalidating, invalidation_reason := some code }

/-- A task is invalidated; its attempts are fenced off, and the host is to stop them. -/
def Run.invalidate (run : Run) (task_id code : String) : Run :=
  { run with
    tasks := run.tasks.modify task_id (·.invalidate code)
    attempts := run.attempts.map fun a =>
      if a.task_id = task_id then { a with fence := a.fence + 1 } else a
    outbox := run.outbox ++ (run.attempts.filter (·.task_id = task_id)).map fun a =>
      ⟨invalidateKey a.id, .invalidate, .pending, a.id⟩ }

def Run.receive (run : Run) (row : InboxRow) : Run :=
  if run.inbox.any (·.id = row.id) then run else { run with inbox := run.inbox ++ [row] }

def Run.block (run : Run) (codes : List String) : Run :=
  { run with state := .blocked, reason_codes := codes }

-- Enqueueing

def sameSet (l l' : List String) : Bool := l.all l'.contains && l'.all l.contains

/-- Why a task may not review the one it depends on, if it may not. -/
def reviewRefusal (run : Run) (profile_ref : ProfileRef) (binding : Material) : Option String :=
  match binding.task.depends_on with
  | [dependency] =>
    match run.tasks.get? dependency with
    | some subject =>
      if subject.binding.task.role ≠ .worker || subject.check_evidence.isNone ||
          !sameSet subject.binding.task.paths binding.task.paths then
        some "REVIEW_SCOPE_UNSUPPORTED"
      else if subject.policy.approved_reviewers.any fun row =>
          row.profile_id = profile_ref.id && row.profile_revision = profile_ref.revision then none
      else some "REVIEW_PROFILE_NOT_APPROVED"
    | none => some "DEPENDENCIES_NOT_READY"
  | _ => some "REVIEW_SUBJECT_AMBIGUOUS"

def Run.ready (run : Run) (task_id : String) : Bool :=
  match run.tasks.get? task_id with
  | some task => task.state = .awaitingReview || task.state = .completed
  | none => false

def refusal (w : World) (run : Run) (task_id : String) (profile_ref : ProfileRef)
    (binding : Material) : Option String :=
  match w.fixture with
  | none => some "LIVE_QUALIFICATION_NOT_RUN"
  | some fixture =>
    if !fixture.accepts binding.profile binding.repository.root then
      some "FIXTURE_BINDING_UNSUPPORTED"
    else if !binding.task.depends_on.all run.ready then some "DEPENDENCIES_NOT_READY"
    else match binding.task.role with
      | .worker =>
        if run.execution_worker_tasks.all (·.contains task_id) then none
        else some "TASK_LINEAGE_REQUIRED"
      | .reviewer => reviewRefusal run profile_ref binding
      | .commander => none

def newCounters (w : World) (binding : Material) : Counters where
  total_attempts := 0
  started_at := w.now
  max_total_attempts := binding.budget.max_total_attempts
  max_duration_seconds := binding.budget.max_duration_seconds
  quality_repair_rounds := 0
  roots := .empty
  max_quality_repair_rounds := binding.limits.max_quality_repair_rounds
  max_infrastructure_retries_per_root_task := binding.limits.max_infrastructure_retries_per_root_task

def adoptPlan (w : World) (run : Run) (binding : Material) : Except Fault Run :=
  match run.execution_worker_tasks with
  | some _ => .ok run
  | none => do
    let plan ← need (w.run.plans.find? (·.plan_revision = binding.plan_revision)) .missing
    return { run with
      execution_worker_tasks := some ((plan.tasks.filter (·.role = .worker)).map (·.id))
      execution_plan_revision := some binding.plan_revision }

def expiry (now : Rat) (counters : Counters) : Option Rat := some (min (now + 30) counters.deadline)

def newAttempt (L : Library) (w : World) (fixture : Fixture) (task_id : String) (binding : Material)
    (counters : Counters) : Attempt where
  id := w.attempt_id
  task_id := task_id
  root_task_id := L.digest [w.run.id, task_id]
  fence := 1
  start_key := startKey w.attempt_id
  state := .queued
  workspace := fixture.workspace w.attempt_id
  manifest := {
    id := w.attempt_id
    fence := 1
    role := binding.task.role
    profile_id := binding.profile.id
    profile_revision := binding.profile.revision
    authorization_ref := "approval:" ++ binding.authorization_digest
    budget_ref := binding.budget.id
    permissions := binding.profile.required_permissions
    requested_binding := binding.profile.binding }
  activation := {
    id := "activation:" ++ w.attempt_id
    attempt_id := w.attempt_id
    fence := 1
    authorization_ref := "approval:" ++ binding.authorization_digest
    budget_ref := binding.budget.id
    expires_at := expiry w.now counters }
  physical := none
  stage := if binding.task.role = .worker then .write else .review
  activation_check := none

def reviewSubject (run : Run) (binding : Material) : Except Fault (Option Task) :=
  match binding.task.role, binding.task.depends_on with
  | .reviewer, [dependency] => some <$> need (run.tasks.get? dependency) .missing
  | .reviewer, _ => .error .reviewSubjectAmbiguous
  | _, _ => .ok none

def newTask (w : World) (fixture : Fixture) (task_id : String) (binding : Material) (policy : Policy)
    (subject : Option Task) : Task where
  id := task_id
  state := .queued
  binding := binding
  baseline := w.baseline
  profile_ref := ⟨binding.profile.id, binding.profile.revision⟩
  policy := (subject.map (·.policy)).getD policy
  candidate_id := subject.bind (·.candidate_id)
  subject_task_id := subject.map (·.id)
  fixture_recipe := fixture.identity
  invalidation_reason := none
  check_evidence := none
  review_evidence := none

def Counters.countRoot (c : Counters) (root_id : String) : Counters :=
  { c with
    total_attempts := c.total_attempts + 1
    roots := c.roots.putNew root_id 0 }

def queue (L : Library) (w : World) (fixture : Fixture) (run : Run) (task_id : String)
    (binding : Material) : Except Fault Run := do
  ensure (!run.paused && !run.cancelled) .runNotActive
  ensure (!run.tasks.contains task_id) .taskAlreadyEnqueued
  let run ← adoptPlan w run binding
  let counters := run.counters.getD (newCounters w binding)
  ensure (!counters.exhausted) .runAttemptLimit
  ensure (w.now < counters.deadline) .runDurationLimit
  let attempt := newAttempt L w fixture task_id binding counters
  ensure (attempt.manifest.valid L.host) .contract
  let _ ← Check.need (attempt.activation.construct L.host).toOption .contract
  let policy ← need (fixture.policy binding.checks binding.reviewers) .checkPolicyUnsupported
  let subject ← reviewSubject run binding
  return { run.append attempt with
    counters := some (counters.countRoot attempt.root_task_id)
    tasks := run.tasks.put task_id (newTask w fixture task_id binding policy subject)
    state := .queued
    reason_codes := [] }

-- Retries

def impacted (run : PlannerRun) (task : Task) : Bool :=
  run.plans.any fun row => task.binding.plan_revision < row.plan_revision &&
    run.approvals.contains row.plan_revision && row.affected.contains task.id

structure Retry where
  source : Attempt
  fixture : Fixture
  counters : Counters
  retries : Nat

def retryReady (w : World) (run : Run) (task_id : String) : Except Fault Retry := do
  ensure (!run.paused && !run.cancelled) .runNotActive
  let task ← need ((run.tasks.get? task_id).filter (·.state = .failed)) .infrastructureFailureRequired
  let source ← need (run.attempts.reverse.find? (·.task_id = task_id)) .missing
  let physical ← need (w.inspect source.id) .missing
  ensure (physical.state = .exited && physical.exit_code = some 75 && source.stage = .write)
    .infrastructureFailureRequired
  let fixture ← need (w.fixture.filter (·.identity = task.fixture_recipe)) .fixtureBindingUnsupported
  match w.material task_id task.profile_ref with
  | .error code => .error (.input code)
  | .ok current =>
    ensure (current.input_sha256 = task.binding.input_sha256) (.input "APPROVED_INPUT_CHANGED")
    let counters ← need run.counters .missing
    let retries ← need (counters.roots.get? source.root_task_id) .missing
    ensure (retries < counters.max_infrastructure_retries_per_root_task) .rootRetryLimit
    ensure (!counters.exhausted) .runAttemptLimit
    ensure (w.now < counters.deadline) .runDurationLimit
    return ⟨source, fixture, counters, retries⟩

/-- The source's attempt again, under a new identity and the first fence. -/
def Retry.attempt (r : Retry) (w : World) : Attempt :=
  { r.source with
    id := w.attempt_id
    fence := 1
    state := .queued
    physical := none
    start_key := startKey w.attempt_id
    workspace := r.fixture.workspace w.attempt_id
    manifest := { r.source.manifest with id := w.attempt_id, fence := 1 }
    activation := { r.source.activation with
      id := "activation:" ++ w.attempt_id
      attempt_id := w.attempt_id
      fence := 1
      expires_at := expiry w.now r.counters } }

def Counters.retry (c : Counters) (root_id : String) (retries : Nat) : Counters :=
  { c with
    roots := c.roots.put root_id (retries + 1)
    total_attempts := c.total_attempts + 1 }

def Retry.run (r : Retry) (w : World) (run : Run) (task_id : String) : Run :=
  let fenced := run.modifyAttempt r.source.id fun a => { a with fence := a.fence + 1 }
  { fenced.append (r.attempt w) with
    counters := some (r.counters.retry r.source.root_task_id r.retries)
    tasks := run.tasks.modify task_id ({ · with state := .queued })
    state := .queued
    reason_codes := [] }

def retry (w : World) (run : Run) (task_id : String) : Trace Effect Fault Run := do
  let r ← .lift (retryReady w run task_id)
  .emit (.controlled r.source.id ⟨r.source.fence + 1, r.source.manifest.authorization_ref, false⟩)
  return r.run w run task_id

-- Control

inductive ControlAction
  | pause
  | resume
  | cancel
deriving DecidableEq

def cancelRow (L : Library) (command_key : String) (attempt : Attempt) : OutboxRow :=
  ⟨"cancel:" ++ L.digest [command_key, attempt.id], .cancel, .pending, attempt.id⟩

def Run.control (run : Run) (L : Library) (command_key : String) : ControlAction → Run
  | .cancel =>
    if run.cancelled then run
    else { run with
      cancelled := true
      paused := false
      state := .cancelling
      attempts := run.attempts.map fun a => { a with fence := a.fence + 1 }
      outbox := run.outbox ++ run.attempts.map (cancelRow L command_key) }
  | .pause =>
    if run.paused then run
    else { run with before_pause_state := some run.state, paused := true, state := .paused }
  | .resume =>
    if run.paused then
      { run with
        paused := false
        state := if run.state = .paused then run.before_pause_state.getD .paused else run.state }
    else run

-- Stopping

/-- The host fences an attempt off and cancels it, unless it has none. -/
def stop (w : World) (attempt : Attempt) (cancel_key : String) : Trace Effect Fault Unit :=
  match w.inspect attempt.id with
  | none => pure ()
  | some _ => do
    .emit (.controlled attempt.id ⟨attempt.fence, attempt.manifest.authorization_ref, false⟩)
    .emit (.cancelled attempt.id cancel_key)

def Attempt.stopped (a : Attempt) (w : World) (state : AttemptState) : Attempt :=
  match w.inspect a.id with
  | none => { a with physical := some .notStarted, state }
  | some _ => { a with
      physical := some (.observed (w.cancel a.id).snapshot)
      state := if (w.cancel a.id).confirmed then state else .unknown }

def stoppedRow (w : World) (attempt_id : String) : OutboxState :=
  match w.inspect attempt_id with
  | none => .confirmedNotStarted
  | some _ => (w.cancel attempt_id).status

def hasStopped (w : World) (attempt : Attempt) : Bool :=
  (w.inspect attempt.id).isNone || (w.cancel attempt.id).confirmed

def observeInvalidation (w : World) (run : Run) (task : Task) : Trace Effect Fault Run := do
  let own := run.attempts.filter (·.task_id = task.id)
  let outbox ← own.foldlM (fun outbox a => do
    let key := invalidateKey a.id
    .lift (ensure (outbox.any (·.id = key)) .missing)
    stop w a key
    return settleFirst (·.id = key) (stoppedRow w a.id) outbox) run.outbox
  return {
    run with
    outbox
    attempts := run.attempts.map fun a => if a.task_id = task.id then a.stopped w .invalidated else a
    tasks := run.tasks.modify task.id fun t =>
      if own.all (hasStopped w) then { t with state := .invalidated } else t }

def observeInvalidations (w : World) (run : Run) (tasks : List Task) : Trace Effect Fault Run := do
  let run ← tasks.foldlM (observeInvalidation w) run
  let left := tasks.filterMap fun t => run.tasks.get? t.id
  let pending := left.any (·.state = .invalidating)
  return { run with
    state := if pending then .invalidating else .blocked
    reason_codes := if pending then ["STOP_UNKNOWN"]
      else (left.filterMap (·.invalidation_reason)).dedup.insertionSort (· ≤ ·) }

def Attempt.cancelled (a : Attempt) (w : World) : Attempt :=
  match w.inspect a.id with
  | some observed =>
    if a.state = .cancelled then { a with physical := some (.observed observed) }
    else a.stopped w .cancelled
  | none => a.stopped w .cancelled

/-- The observation of an attempt of a cancelled run is received, and no result of it. -/
def Run.receiveCancelled (run : Run) (L : Library) (w : World) (a : Attempt) : Run :=
  match w.inspect a.id with
  | none => run
  | some _ =>
    let physical := (a.cancelled w).physical
    run.receive ⟨L.eventId a.id physical, a.id, physical, some false⟩

def stopUnless (done : Bool) (w : World) (attempt : Attempt) (cancel_key : String) : Trace Effect Fault Unit :=
  if done then pure () else stop w attempt cancel_key

def Task.cancel (t : Task) : Task := { t with state := .cancelled }

def cancelAttempt (L : Library) (w : World) (run : Run) (a : Attempt) : Trace Effect Fault Run := do
  let own := fun row : OutboxRow => row.kind = .cancel && row.attempt_id = a.id
  let row ← .lift (need (run.outbox.find? own) .missing)
  let again := (w.inspect a.id).isSome && a.state = .cancelled
  stopUnless again w a row.id
  .lift (ensure (run.tasks.contains a.task_id) .missing)
  return { (run.replace (a.cancelled w)).receiveCancelled L w a with
    outbox := if again then run.outbox else settleFirst own (stoppedRow w a.id) run.outbox
    tasks := run.tasks.modify a.task_id Task.cancel }

def cancelObserve (L : Library) (w : World) (run : Run) : Trace Effect Fault Run := do
  let run ← run.attempts.foldlM (cancelAttempt L w) run
  let confirmed := run.attempts.all (·.state = .cancelled)
  return { run with
    state := if confirmed then .cancelled else .cancellingUnknown
    reason_codes := if confirmed then [] else ["STOP_UNKNOWN"] }

-- What is approved now

/-- What is approved for the task, as long as it is what the task is bound to. -/
def approved (run : PlannerRun) (current : Except String Material) (task : Task) : Except String Material := do
  let current ← current
  ensure (current.input_sha256 = task.binding.input_sha256 && !impacted run task)
    "APPROVED_INPUT_CHANGED"
  return current

def invalidation (w : World) (run : Run) (task : Task) : Option String :=
  if run.counters.any (·.deadline ≤ w.now) then some "RUN_DURATION_LIMIT"
  else match approved w.run (w.material task.id task.profile_ref) task with
    | .ok _ => none
    | .error code => some code

/-- The tasks that are not what was approved any more, with the reason. -/
def stale (w : World) (run : Run) : List (String × String) :=
  (run.ordered.filter (·.state ≠ .invalidated)).filterMap fun task =>
    (invalidation w run task).map fun code => (task.id, code)

def Run.invalidates (run : Run) (task_id code : String) : Run :=
  { run.invalidate task_id code with state := .invalidating, reason_codes := [code] }

def recipeChanged (w : World) (run : Run) : Bool :=
  match w.fixture with
  | none => !run.tasks.values.isEmpty
  | some fixture => run.tasks.values.any fun task => task.fixture_recipe ≠ fixture.identity

def changeRecipe (w : World) (run : Run) : Run :=
  let code := if w.fixture.isNone then "LIVE_QUALIFICATION_NOT_RUN" else "FIXTURE_RECIPE_CHANGED"
  if run.attempts.any fun a => (w.inspect a.id).isSome then
    match run.ordered.filter (·.state ≠ .invalidated) with
    | [] => run.block [code]
    | tasks => { tasks.foldl (fun run task => run.invalidate task.id code) run with
        state := .invalidating
        reason_codes := [code] }
  else run.block [code]

/-- A completed task whose candidate does not pass its gate any more. -/
def ungated (w : World) (run : Run) : Option Task :=
  run.ordered.find? fun task => task.state = .completed && task.binding.task.role = .worker &&
    !(w.gate task).local_gate_passed

-- Checks

def checkAttempt (w : World) (fixture : Fixture) (counters : Counters) (original : Attempt) : Attempt :=
  { original with
    id := w.attempt_id
    stage := .check
    state := .queued
    physical := none
    start_key := startKey w.attempt_id
    workspace := fixture.workspace w.attempt_id
    manifest := { original.manifest with id := w.attempt_id }
    activation := { original.activation with
      id := "activation:" ++ w.attempt_id
      attempt_id := w.attempt_id
      expires_at := expiry w.now counters } }

def queueCheck (w : World) (fixture : Fixture) (run : Run) (task : Task) : Except Fault Run := do
  let counters ← need run.counters .missing
  if counters.exhausted then return run.block ["RUN_ATTEMPT_LIMIT"]
  else
    let original ← need (run.attempts.find? (·.task_id = task.id)) .missing
    return { run.append (checkAttempt w fixture counters original) with
      counters := some { counters with total_attempts := counters.total_attempts + 1 }
      tasks := run.tasks.modify task.id ({ · with state := .checking })
      state := .queued }

def candidateReady (run : Run) : Option Task := run.ordered.find? (·.state = .candidateReady)

def queuePending (w : World) (run : Run) : Except Fault Run :=
  match candidateReady run with
  | none => .ok run
  | some task => do
    let fixture ← need w.fixture .missing
    queueCheck w fixture run task

-- Launching

def Run.started (run : Run) (w : World) (attempt : Attempt) : Run :=
  match w.start with
  | .error reason =>
    { run.replace { attempt with state := .blocked, physical := some (.observed w.denied) } with
      state := .blocked
      reason_codes := [reason] }
  | .ok observed =>
    let running := observed.state = .running
    { run.replace { attempt with
        state := if running then .running else .unknown
        physical := some (.observed observed) } with
      outbox := run.outbox.map fun row =>
        if row.id = attempt.start_key then { row with state := .acknowledged } else row
      state := if running then .running else .unknown }

def startAttempt (w : World) (run : Run) (attempt : Attempt) : Trace Effect Fault Run := do
  .emit (.controlled attempt.id ⟨attempt.fence, attempt.manifest.authorization_ref, true⟩)
  .emit (.started attempt.start_key attempt.activation)
  return run.started w attempt

def launchLocked (w : World) (run : Run) (attempt : Attempt) : Trace Effect Fault Run :=
  if !w.safe_path then pure (run.block ["FIXTURE_PATH_UNSAFE"])
  else match w.inspect attempt.id with
    | some _ => startAttempt w run attempt
    | none =>
      if !attempt.activation.unexpired w.launch_now then
        pure ((run.replace { attempt with state := .blocked }).block ["ACTIVATION_NOT_CURRENT"])
      else if w.workspace_exists then pure (run.block ["WORKSPACE_NOT_NEW"])
      else do
        .emit (.prepared attempt.manifest attempt.start_key)
        startAttempt w run attempt

def launch (w : World) (run : Run) (attempt : Attempt) (task : Task) : Trace Effect Fault Run :=
  match approved w.launch_run (w.launch_material task.id task.profile_ref) task with
  | .error code => pure (run.invalidates task.id code)
  | .ok current =>
    let checked := { attempt with activation_check := some ⟨w.launch_run.revision,
      current.plan_revision, current.authorization_digest, current.current_resources⟩ }
    launchLocked w (run.replace checked) checked

-- Observing

def Snapshot.exited (s : Snapshot) : Option Int := if s.state = .exited then s.exit_code else none

def reviewVerdict (exit_code : Int) (log : Option ReviewRecord) (paths : List String) : Verdict :=
  if exit_code ≠ 0 then .failed
  else match log with
    | some record =>
      if record.operation = "review" && record.synthetic && record.files = paths &&
          !record.author_reasoning_included then record.verdict.getD .inconclusive
      else .inconclusive
    | none => .inconclusive

def Task.check (t : Task) (evidence : Evidence) : Task :=
  { t with
    check_evidence := some evidence
    state := if evidence.passed then .awaitingReview else .blocked }

def completeCheck (w : World) (run : Run) (attempt : Attempt) (task : Task) (exit_code : Int) :
    Trace Effect Fault Run := do
  let _ ← .lift (need task.candidate_id .missing)
  let _ ← .lift (need task.policy.checks.head? .missing)
  .emit (.checked attempt.id exit_code)
  let passed := w.evidence.passed
  return { (run.replace { attempt with state := .completed }).modifyTask task.id (·.check w.evidence) with
    state := if passed then .awaitingReview else .blocked
    reason_codes := if passed then [] else ["CHECK_NOT_PASSED"] }

def Run.passGate (run : Run) (plan : PlanRow) : Run :=
  let remaining := (plan.tasks.filter fun row => row.required &&
    (run.tasks.get? row.id).map (·.state) ≠ some .completed).map (·.id)
  let run := { run with remaining_required_task_ids := some (remaining.insertionSort (· ≤ ·)) }
  if !remaining.isEmpty then { run with state := .awaitingTasks }
  else if 1 < (plan.tasks.filter (·.role = .worker)).length then
    { run with
      state := .integrationRequired
      reason_codes := ["INTEGRATED_CANDIDATE_NOT_IMPLEMENTED"] }
  else run

def Task.review (t : Task) (evidence : Evidence) : Task :=
  { t with
    review_evidence := some evidence
    state := if evidence.passed then .completed else .blocked }

def Task.complete (t : Task) : Task := { t with state := .completed }

/-- A review is recorded, with what the gate of its candidate says then. -/
def Run.review (run : Run) (w : World) (attempt : Attempt) (task : Task) : Run :=
  { (run.replace { attempt with state := .completed }).modifyTask task.id (·.review w.evidence) with
    state := if w.review_gate.local_gate_passed then .localGatePassed else .blocked
    reason_codes := w.review_gate.reasons }

def completeReview (w : World) (run : Run) (attempt : Attempt) (task : Task) (exit_code : Int) :
    Trace Effect Fault Run := do
  let _ ← .lift (need task.candidate_id .missing)
  let subject ← .lift (need (task.subject_task_id.bind run.tasks.get?) .missing)
  let _ ← .lift (need subject.check_evidence .missing)
  .emit (.reviewed attempt.id (reviewVerdict exit_code w.log task.binding.task.paths))
  let run := run.review w attempt task
  if w.review_gate.local_gate_passed then do
    let plan ← .lift (need (w.review_run.plans.find?
      (·.plan_revision = w.review_run.active_plan_revision)) .missing)
    return (run.modifyTask subject.id Task.complete).passGate plan
  else return run

def Task.ready (t : Task) (candidate_id : String) : Task :=
  { t with state := .candidateReady, candidate_id := some candidate_id }

def freeze (w : World) (run : Run) (attempt : Attempt) (task : Task) : Trace Effect Fault Run := do
  .emit (.frozen attempt.id)
  return { (run.replace { attempt with state := .completed }).modifyTask task.id
      (·.ready w.candidate_id) with
    state := .candidateReady }

def Task.fail (t : Task) : Task := { t with state := .failed }

def failWorker (run : Run) (attempt : Attempt) (task : Task) : Run :=
  { (run.replace { attempt with state := .failed }).modifyTask task.id Task.fail with
    state := .blocked
    reason_codes := ["WORKER_FAILED"] }

def conclude (w : World) (run : Run) (attempt : Attempt) (task : Task) (exit_code : Int) :
    Trace Effect Fault Run :=
  match attempt.stage with
  | .check => completeCheck w run attempt task exit_code
  | .review => completeReview w run attempt task exit_code
  | .write =>
    if exit_code ≠ 0 then pure (failWorker run attempt task) else freeze w run attempt task

def Run.observed (run : Run) (L : Library) (attempt : Attempt) : Run :=
  (run.replace attempt).receive
    ⟨L.eventId attempt.id attempt.physical, attempt.id, attempt.physical, none⟩

section
variable (L : Library) (w : World)

def observe (run : Run) (attempt : Attempt) (task : Task) : Trace Effect Fault Run := do
  let observed ← .lift (need (w.inspect attempt.id) .missing)
  let attempt := { attempt with physical := some (.observed observed) }
  let run := run.observed L attempt
  match observed.exited with
  | none =>
    let running := observed.state = .running
    return { run.replace { attempt with state := if running then .running else .unknown } with
      state := if running then .running else .unknown }
  | some exit_code => conclude w run attempt task exit_code

-- Advancing

/-- The first attempt that waits for its process or has one is worked on. -/
def work (run : Run) : Trace Effect Fault Run :=
  match run.attempts.find? Attempt.active with
  | none => pure run
  | some attempt => do
    let task ← .lift (need (run.tasks.get? attempt.task_id) .missing)
    if w.fixture.isNone then return run.block ["LIVE_QUALIFICATION_NOT_RUN"]
    else if attempt.state = .queued then launch w run attempt task
    else observe L w run attempt task

def Attempt.observed (a : Attempt) (w : World) : Attempt :=
  match w.inspect a.id with
  | some observed => { a with physical := some (.observed observed) }
  | none => a

def observePaused (w : World) (run : Run) : Run :=
  { run with attempts := run.attempts.map (·.observed w) }

def advance (run : Run) : Trace Effect Fault Run :=
  if run.cancelled then cancelObserve L w run
  else match run.ordered.filter (·.state = .invalidating) with
    | task :: rest => observeInvalidations w run (task :: rest)
    | [] =>
      if recipeChanged w run then pure (changeRecipe w run)
      else match stale w run with
        | row :: rest =>
          pure ((row :: rest).foldl (fun run (task_id, code) => run.invalidates task_id code) run)
        | [] =>
          match ungated w run with
          | some task =>
            pure ((run.modifyTask task.id ({ · with state := .blocked })).block (w.gate task).reasons)
          | none =>
            if run.paused then pure (observePaused w run)
            else do
              let run ← .lift (queuePending w run)
              work L w run

-- Commands

/-- What a command is recognized by when it is given again. -/
inductive Payload
  | enqueue (run_id task_id : String) (profile_ref : ProfileRef)
  | retry (run_id task_id : String)
  | control (run_id : String) (action : ControlAction)
deriving DecidableEq

structure Command where
  payload : Payload
  result : Run

structure Db where
  runs : Dict String Run
  commands : Dict (String × String) Command

def Db.empty : Db := ⟨.empty, .empty⟩

def replay (db : Db) (principal command_key : String) (payload : Payload) : Except Fault (Option Run) :=
  match db.commands.get? (principal, command_key) with
  | some command => do
    ensure (command.payload = payload) .idempotencyConflict
    return some command.result
  | none => .ok none

def Db.record (db : Db) (principal command_key : String) (payload : Payload) (result : Run) : Db :=
  { db with commands := db.commands.put (principal, command_key) ⟨payload, result⟩ }

def Db.save (db : Db) (run_id : String) (run : Run) : Db := { db with runs := db.runs.put run_id run }

def enqueueTask (run_id task_id : String) (profile_ref : ProfileRef) (db : Db) : Except Fault (Db × Run) := do
  let existing := db.runs.get? run_id
  let result := existing.getD (Run.new run_id)
  let checked := do
    let binding ← w.material task_id profile_ref
    match refusal w result task_id profile_ref binding with
    | some code => .error code
    | none => .ok binding
  match checked, w.fixture with
  | .ok binding, some fixture =>
    let run ← queue L w fixture result task_id binding
    return (db.save run_id run, run)
  | .ok _, none => .error .missing
  | .error code, _ =>
    let refused := result.block [code]
    return (if existing.isNone then db.save run_id refused else db, refused)

def enqueue (run_id task_id : String) (profile_ref : ProfileRef)
    (command_key principal : String) (db : Db) : Except Fault Db := do
  ensure ([run_id, task_id, command_key, principal].all L.identifier) .identityInvalid
  let payload := Payload.enqueue run_id task_id profile_ref
  match ← replay db principal command_key payload with
  | some _ => return db
  | none =>
    let (db, result) ← enqueueTask L w run_id task_id profile_ref db
    return db.record principal command_key payload result

def retryCommand (run_id task_id command_key principal : String) (db : Db) : Trace Effect Fault Db := do
  .lift (ensure ([run_id, task_id, command_key, principal].all L.identifier) .identityInvalid)
  let payload := Payload.retry run_id task_id
  match ← .lift (replay db principal command_key payload) with
  | some _ => return db
  | none =>
    let run ← .lift (need (db.runs.get? run_id) .notFound)
    let run ← retry w run task_id
    return (db.save run_id run).record principal command_key payload run

def control (L : Library) (run_id : String) (action : ControlAction) (command_key principal : String)
    (db : Db) : Except Fault Db := do
  ensure ([command_key, principal].all L.identifier) .identityInvalid
  let payload := Payload.control run_id action
  match ← replay db principal command_key payload with
  | some _ => return db
  | none =>
    let run ← need (db.runs.get? run_id) .notFound
    ensure (!run.cancelled || action = .cancel) .runCancelled
    let run := run.control L command_key action
    return (db.save run_id run).record principal command_key payload run

def advanceCommand (run_id : String) (db : Db) : Trace Effect Fault Db := do
  let run ← .lift (need (db.runs.get? run_id) .notFound)
  let run ← advance L w run
  return db.save run_id run

end

-- The system

inductive Action
  | enqueue (run_id task_id : String) (profile_ref : ProfileRef) (command_key principal : String)
      (w : World)
  | retry (run_id task_id command_key principal : String) (w : World)
  | control (run_id : String) (action : ControlAction) (command_key principal : String)
  | advance (run_id : String) (w : World)
  /-- A command stops after some of its effects; its transaction is rolled back. -/
  | crash (effects : Nat) (action : Action)

def transact (L : Library) (db : Db) : Action → Trace Effect Fault Db
  | .enqueue run_id task_id profile_ref command_key principal w =>
    .lift (enqueue L w run_id task_id profile_ref command_key principal db)
  | .retry run_id task_id command_key principal w =>
    retryCommand L w run_id task_id command_key principal db
  | .control run_id action command_key principal =>
    .lift (control L run_id action command_key principal db)
  | .advance run_id w => advanceCommand L w run_id db
  | .crash effects action => ⟨(transact L db action).effects.take effects, .ok db⟩

def step (L : Library) (db : Db) (action : Action) : Db :=
  match (transact L db action).result with
  | .ok db' => db'
  | .error _ => db

def system (L : Library) : System Db Action where
  initial := (· = .empty)
  step := step L

def Action.run_id : Action → String
  | .enqueue run_id .. => run_id
  | .retry run_id .. => run_id
  | .control run_id .. => run_id
  | .advance run_id _ => run_id
  | .crash _ action => action.run_id

structure Event where
  run_id : String
  before : Option Run
  effects : List Effect

def emit (L : Library) (db : Db) (action : Action) : Option Event :=
  some ⟨action.run_id, db.runs.get? action.run_id, (transact L db action).effects⟩

end Karajan.Orchestration
