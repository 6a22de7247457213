import Karajan.Tasks.Models

/-!
# Admitting tasks

Operations are kept in a database of their own, beside the capacity store. A
transaction on them is exclusive, but what it asks of the store is not: others
send their commands in between, and what the store has done stays when the
transaction is rolled back. So each transaction is a visit of the store, told
what others do before each of its own calls.
-/

namespace Karajan.Tasks

open Check
open Capacity (AdmissionRequest Clocked)
open Visit (lift)

-- The capacity store, as a transaction uses it

def admitKey (operation_id : String) : String := "task-admit:" ++ operation_id
def cancelKey (operation_id : String) : String := "task-cancel:" ++ operation_id
def reviewerKey (operation_id : String) : String := "reviewer-activate:" ++ operation_id
def activationKey (operation_id : String) : String := "go-task-activate:" ++ operation_id

def ownKey (key : String) : Bool :=
  ["task-admit:", "task-cancel:", "reviewer-activate:", "go-task-activate:"].any fun start =>
    start.toList.isPrefixOf key.toList

open Capacity (Action Command Result Facts World CapacityError Decision same)

structure OtherCommand where
  action : Action
  foreign : ownKey action.command_key = false

abbrev Moment := List OtherCommand

abbrev Visiting := Visit Clocked TaskError

variable (lib : Library)

def OtherCommand.send (other : OtherCommand) (store : Clocked) : Clocked :=
  (store.send lib.capacity other.action.command_key other.action.command other.action.world).2

def others (moment : Moment) : Visiting Unit := fun store =>
  (.ok (), moment.foldl (fun store other => other.send lib store) store)

def readReceipt (moment : Moment) (command_key : String) (c : Command) : Visiting (Option Result) := do
  others lib moment
  fun store => ((store.commandReceipt lib.capacity command_key c).mapError .capacity, store)

def routingFacts (moment : Moment) (admission_id : String) (reading : Option Rat) : Visiting Facts := do
  others lib moment
  fun store =>
    let (facts, store) := store.routingFacts admission_id reading
    (facts.mapError .capacity, store)

def trySend (moment : Moment) (command_key : String) (c : Command) (w : World) :
    Visiting (Except CapacityError Result) := do
  others lib moment
  fun store =>
    let (answer, store) := store.send lib.capacity command_key c w
    (.ok answer, store)

def send (moment : Moment) (command_key : String) (c : Command) (w : World) : Visiting Result := do
  let answer ← trySend lib moment command_key c w
  lift (answer.mapError .capacity)

def decision (result : Result) : Except TaskError Decision :=
  match result with
  | .decided decision => .ok decision
  | .done | .observed _ | .activation _ | .state _ | .used _ | .failed _ => .error .exception

def activation (admission_id : String) (result : Result) : Except TaskError ActivationReceipt :=
  match result with
  | .activation activation => .ok ⟨admission_id, activation⟩
  | .done | .observed _ | .decided _ | .state _ | .used _ | .failed _ => .error .exception

def cancellation (result : Result) : Except TaskError Capacity.ReservationState :=
  match result with
  | .state state => .ok state
  | .done | .observed _ | .decided _ | .activation _ | .used _ | .failed _ => .error .exception

-- Requests

/-- The request of an assessment (`_request`), none where nothing was selected. -/
def requestOf (assessment : Assessment) : Except TaskError (Option AdmissionRequest) :=
  match assessment.selected with
  | none => .ok none
  | some route => do
    let expectation ← need (route.expectations.find? (·.profile = route.selected_profile)) .exception
    let estimate ← need (route.estimates.find? (·.profile = route.selected_profile)) .exception
    return some {
      attempt_id := assessment.planned_attempt_id
      run_id := assessment.run_id
      profile_id := route.selected_profile.id
      profile_revision := route.selected_profile.revision
      role := route.task.role
      purpose := route.task.purpose
      authorization_ref := lib.digest (.approval assessment.approval)
      rulebook_revision := lib.digest (.rulebook route.rulebook)
      duration_seconds := route.task.duration_seconds
      demand := .ofList estimate.demand
      expected_capacity := some expectation.expected_capacity }

def sameExpected (a b : Capacity.ExpectedCapacity) : Bool :=
  a.policy_revision = b.policy_revision && same a.pool_windows b.pool_windows &&
    a.lead_reserve_access = b.lead_reserve_access

def sameRequest (a b : AdmissionRequest) : Bool :=
  a.attempt_id = b.attempt_id && a.run_id = b.run_id && a.profile_id = b.profile_id &&
    a.profile_revision = b.profile_revision && a.role = b.role && a.purpose = b.purpose &&
    a.authorization_ref = b.authorization_ref && a.rulebook_revision = b.rulebook_revision &&
    a.duration_seconds = b.duration_seconds && same a.demand b.demand &&
    (match a.expected_capacity, b.expected_capacity with
      | none, none => true
      | some a, some b => sameExpected a b
      | none, some _ | some _, none => false)

-- Refreshing

namespace Operation

def intent? (op : Operation) : Option ActivationIntent := op.reviewer_activation.intent?

/-- A reviewer's operation that may yet get its hold back (`reviewer_recovery`). -/
def recovering (op : Operation) : Bool :=
  op.request.any (·.role = .reviewer) && op.state = .reconciliationRequired &&
    op.capacity_receipt.any fun receipt =>
      op.intent?.any fun intent =>
        some intent.admission_id = receipt.admission_id && intent.receipt.all (·.revalidated)

/-- What a refresh looks at again; an operation with an execution is not its business. -/
def refreshes (op : Operation) : Bool := op.execution.isNone && (op.state = .reserved || op.recovering)

def withReceipt (op : Operation) (intent : ActivationIntent) (receipt : ActivationReceipt) : Operation :=
  { op with reviewer_activation := .intended { intent with receipt := some receipt } }

def answered (op : Operation) (intent : ActivationIntent) (receipt : ActivationReceipt) : Operation :=
  { op.withReceipt intent receipt with
    reason_codes := receipt.activation.reason_codes.map .capacity }

def turned (op : Operation) (facts : Facts) (state : OperationState)
    (reason_codes : List ReasonCode) : Operation :=
  { op with state, reason_codes, capacity_status := some facts }

/-- The facts and the answer agree that the reservation was activated by this operation. -/
def activeWithReceipt (op : Operation) (current : Capacity.AdmissionFacts) : Bool :=
  current.stored_state = .active && op.intent?.any fun intent => intent.receipt.any (·.revalidated)

/-- The state of the operation, after the facts about its reservation. -/
def settle (op : Operation) (recovering : Bool) (facts : Facts) : Operation :=
  match facts.admission with
  | none => op.turned facts .reconciliationRequired [.capacityAdmissionMissing]
  | some current =>
    if current.stored_state = .expired || current.expired_unsent then
      op.turned facts .expired [.reservationExpiredUnsent]
    else if current.stored_state = .released then op.turned facts .released [.reservationReleased]
    else if op.activeWithReceipt current && recovering && !op.cancel_requested then
      op.turned facts .reserved []
    else if current.stored_state ≠ .reserved && !op.activeWithReceipt current then
      op.turned facts .reconciliationRequired [.executionReconciliationRequired]
    else op

end Operation

/-- What a refresh meets: others before each reading, and the clock. -/
structure RefreshWorld where
  (receipt facts : Moment)
  reading : Option Rat

def readActivation (moment : Moment) (op : Operation) : Visiting Operation :=
  match op.intent? with
  | none => pure op
  | some intent => do
    let found ← readReceipt lib moment intent.command_key (.activate intent.admission_id)
    match found with
    | none => pure op
    | some result => do
      let receipt ← lift (activation intent.admission_id result)
      pure (op.answered intent receipt)

def refresh (w : RefreshWorld) (op : Operation) : Visiting Operation :=
  if op.refreshes then do
    let read ← readActivation lib w.receipt op
    let receipt ← lift (need read.capacity_receipt .exception)
    let admission_id ← lift (need receipt.admission_id .exception)
    let facts ← routingFacts lib w.facts admission_id w.reading
    pure (read.settle op.recovering facts)
  else pure op

-- Queueing

inductive Payload
  | enqueue (run_id task_id : String)
  | prepare (run_id operation_id : String) (source : GoExecutionSource)
deriving DecidableEq

structure CommandRow where
  payload : Payload
  result : Operation

abbrev Operations := Dict String Operation

def Operations.load (operations : Operations) (run_id operation_id : String) : Except TaskError Operation := do
  let op ← need (operations.get? operation_id) .admissionNotFound
  ensure (op.run_id = run_id) .admissionNotFound
  return op

def Operations.ofTask (operations : Operations) (run_id task_id : String) : List Operation :=
  operations.values.filter fun op => op.run_id = run_id && op.task_id = task_id

def RunDocument.active? (run : RunDocument) : Option Plan :=
  run.plans.find? fun plan => some plan.plan_revision = run.active_plan_revision

/-- The one persisted operation of the worker that a reviewer's task depends on. -/
def reviewerContext (operations : Operations) (run : RunDocument) (bindings : Bool)
    (task_id principal : String) : Except TaskError (Option Operation) := do
  ensure (run.owner = principal) .runNotFound
  match run.active?.bind fun plan => plan.tasks.find? (·.id = task_id) with
  | none => return none
  | some task =>
    if task.role ≠ .reviewer || !bindings then return none
    match task.depends_on with
    | [dependency] =>
      let rows := (operations.ofTask run.id dependency).filter fun op =>
        op.workspace.isSome && (op.execution.bind (·.collection)).isSome && !op.cancel_requested
      match rows with
      | [row] => return some row
      | [] | _ :: _ :: _ => .error .reviewWorkerLineageRequired
    | [] | _ :: _ :: _ => .error .uniqueReviewerDependencyRequired

/-- What an enqueue meets: the identity that is drawn, and what it is told of the run. -/
structure EnqueueWorld where
  refresh : String → RefreshWorld
  identity : String
  run : Except TaskError RunDocument
  bindings : Bool
  assessment : Except TaskError Assessment

def newOperation (identity run_id task_id : String) (assessment : Assessment)
    (request : Option AdmissionRequest) : Operation where
  id := identity
  run_id
  task_id
  depends_on_operation_id := assessment.reviewer_lineage.map (·.worker_operation_id)
  planned_attempt_id := assessment.planned_attempt_id
  planned_context_id := assessment.planned_context_id
  state := if request.isSome then .queued else .blocked
  reason_codes := assessment.reason_codes.map .assessed
  assessment
  request
  capacity_receipt := none
  reviewer_activation := if assessment.reviewer_lineage.isSome then .absent else .notApplicable
  revalidation := none
  capacity_status := none
  cancel_requested := false
  cancellation_receipt := none
  workspace := none
  execution := none

def refreshEach (w : String → RefreshWorld) : List Operation → Operations → Visiting Operations
  | [], operations => pure operations
  | op :: rest, operations => do
    let refreshed ← refresh lib (w op.id) op
    refreshEach w rest (operations.put refreshed.id refreshed)

/-- A new operation of a task that has no live one, after those that lapsed were found. -/
def queue (w : EnqueueWorld) (run_id task_id principal : String) (operations : Operations) :
    Visiting (Operations × Operation) := do
  let reserved := (operations.ofTask run_id task_id).filter (·.state = .reserved)
  let operations ← refreshEach lib w.refresh reserved operations
  lift (ensure (!(operations.ofTask run_id task_id).any (·.state.live)) .admissionPending)
  let run ← lift w.run
  let _ ← lift (reviewerContext operations run w.bindings task_id principal)
  let assessment ← lift w.assessment
  let request ← lift (requestOf lib assessment)
  let op := newOperation w.identity run_id task_id assessment request
  pure (operations.put op.id op, op)

-- Advancing

/-- What an advance meets. `current` is what the admission guard of its route yields,
and `code` what a callback raises where one does. -/
structure AdvanceWorld where
  refresh : RefreshWorld
  lookup : Moment
  run : Except TaskError RunDocument
  bindings : Bool
  current : Except TaskError Assessment
  admitting : Moment
  capacity : World
  code : String
  admitted : RefreshWorld

/-- Why the request is not sent any more, where what it was assessed on has changed. -/
def refusal (op : Operation) (request : AdmissionRequest) (reviewer : Bool) (current : Assessment) :
    Except TaskError (Option (List ReasonCode)) := do
  let current_request ← requestOf lib current
  let provenance_changed := reviewer && current.selected.isSome &&
    op.assessment.reviewer_lineage ≠ current.reviewer_lineage
  if current_request.any (sameRequest · request) && !provenance_changed then return none
  if provenance_changed then return some [.reviewerAdmissionProvenanceChanged]
  if current.reason_codes ≠ [] then return some (current.reason_codes.map .assessed)
  return some [.approvedAdmissionInputChanged]

def Operation.blocked (op : Operation) (reason_codes : List ReasonCode) : Operation :=
  { op with state := .blocked, reason_codes }

def AdvanceWorld.callbacks (w : AdvanceWorld) (reviewer : Bool) : World :=
  if reviewer then w.capacity
  else { w.capacity with
    before_reserve := none, after_capacity_facts := none, before_reservation_write := none }

deriving instance DecidableEq for CapacityError

/-- The admission itself: the operation revalidated, with the answer where it was asked for. -/
def admission (w : AdvanceWorld) (operations : Operations) (principal : String) (op : Operation)
    (request : AdmissionRequest) : Visiting (Operation × Option Decision) := do
  let run ← lift w.run
  let worker ← lift (reviewerContext operations run w.bindings op.task_id principal)
  let current ← lift w.current
  let op : Operation := { op with revalidation := some current }
  match ← lift (refusal lib op request worker.isSome current) with
  | some reason_codes => pure (op.blocked reason_codes, none)
  | none =>
    match ← trySend lib w.admitting (admitKey op.id) (.admitAttempt request) (w.callbacks worker.isSome) with
    | .ok result => do
      let receipt ← lift (decision result)
      pure (op, some receipt)
    | .error error =>
      if worker.isSome && error = .callback then pure (op.blocked [.refused w.code], none)
      else lift (.error (.capacity error))

def Operation.admitted (op : Operation) (receipt : Decision) : Operation :=
  { op with
    capacity_receipt := some receipt
    state := if receipt.admission_id.isSome then .reserved else .blocked
    reason_codes := receipt.reason_codes.map .capacity }

def advance (w : AdvanceWorld) (operations : Operations) (principal : String) (op : Operation) :
    Visiting Operation := do
  let op ← refresh lib w.refresh op
  if op.state ≠ .queued || op.cancel_requested then pure op
  else
    let request ← lift (need op.request .exception)
    -- A lost response is recovered without asking again.
    match ← readReceipt lib w.lookup (admitKey op.id) (.admitAttempt request) with
    | some result => do
      let receipt ← lift (decision result)
      refresh lib w.admitted (op.admitted receipt)
    | none =>
      match ← admission lib w operations principal op request with
      | (blocked, none) => pure blocked
      | (op, some receipt) => refresh lib w.admitted (op.admitted receipt)

-- Activating a reviewer

/-- The lineage of the reviewer, which is kept with its operation. -/
def reviewerIdentity (operations : Operations) (op : Operation) : Except TaskError Unit := do
  let request ← need op.request .reviewerOperationRequired
  let lineage ← need op.assessment.reviewer_lineage .reviewerOperationRequired
  let worker_operation_id ← need op.depends_on_operation_id .reviewerOperationRequired
  ensure (request.role = .reviewer && lineage.worker_operation_id = worker_operation_id)
    .reviewerOperationRequired
  let worker ← operations.load op.run_id worker_operation_id
  ensure (worker.id ≠ op.id && worker.task_id = lineage.worker_task_id) .reviewerOperationRequired

def intended (op : Operation) (admission_id : String) : Except TaskError ActivationIntent :=
  match op.reviewer_activation with
  | .intended intent => .ok intent
  | .absent => .ok ⟨admission_id, reviewerKey op.id, none⟩
  | .notApplicable => .error .exception

structure ActivateWorld where
  refresh : RefreshWorld
  receipt : Moment
  answered : RefreshWorld

/-- The first transaction of `activate_reviewer`: the operation as it is saved, and the
intent to be sent where no answer to it was found. -/
def intendActivation (w : ActivateWorld) (operations : Operations) (op : Operation) :
    Visiting (Operation × Option ActivationIntent) := do
  lift (reviewerIdentity operations op)
  let op ← refresh lib w.refresh op
  lift (ensure (!op.cancel_requested) .reviewerOperationCancelled)
  lift (ensure (op.state = .reserved) .reservedReviewerOperationRequired)
  let receipt ← lift (need op.capacity_receipt .reservedReviewerOperationRequired)
  let admission_id ← lift (need receipt.admission_id .exception)
  let intent ← lift (intended op admission_id)
  match ← readReceipt lib w.receipt intent.command_key (.activate intent.admission_id) with
  | none => pure ({ op with reviewer_activation := .intended intent }, some intent)
  | some result => do
    let answer ← lift (activation intent.admission_id result)
    let op ← refresh lib w.answered (op.withReceipt intent answer)
    pure (op, none)

deriving instance DecidableEq for ActivationIntent

/-- The last transaction of `activate_reviewer`: the answer is kept with the intent it is to. -/
def storeActivation (w : RefreshWorld) (intent : ActivationIntent) (answer : ActivationReceipt)
    (op : Operation) : Visiting Operation := do
  lift (ensure (op.intent? = some intent) .reviewerActivationIntentChanged)
  refresh lib w (op.withReceipt intent answer)

-- Cancelling

/-- The first transaction of `cancel`, which is the last one of an operation with an execution. -/
def Operation.requestCancel (op : Operation) : Operation :=
  if op.state = .cancelled then op
  else { op with
    cancel_requested := true
    state := .cancellationPending
    execution := op.execution.map fun execution => { execution with cancel_requested := true } }

structure CancelWorld where
  (lookup recorded cancel : Moment)
  capacity : World

def Operation.cancelled (op : Operation) : Operation :=
  { op with state := .cancelled, reason_codes := [] }

/-- The admission that the operation has in the store, whether its reply came or not. -/
def admittedRow (moment : Moment) (op : Operation) : Visiting (Option Decision) :=
  match op.request with
  | none => pure none
  | some request => do
    match ← readReceipt lib moment (admitKey op.id) (.admitAttempt request) with
    | none => pure none
    | some result => do
      let receipt ← lift (decision result)
      pure (some receipt)

def giveUp (w : CancelWorld) (op : Operation) (admission_id : String) : Visiting Operation := do
  let evidence : Capacity.Cancellation := ⟨admission_id, "task-cancel-intent:" ++ op.id⟩
  match ← readReceipt lib w.recorded (cancelKey op.id) (.cancelUnactivated evidence) with
  | some result => do
    let state ← lift (cancellation result)
    pure { op.cancelled with cancellation_receipt := some state }
  | none =>
    match ← trySend lib w.cancel (cancelKey op.id) (.cancelUnactivated evidence) w.capacity with
    | .ok result => do
      let state ← lift (cancellation result)
      pure { op.cancelled with cancellation_receipt := some state }
    | .error error =>
      pure { op with state := .reconciliationRequired, reason_codes := [.capacityError error] }

def finishCancel (w : CancelWorld) (op : Operation) : Visiting Operation :=
  if op.state = .cancelled then pure op
  else do
    match ← admittedRow lib w.lookup op with
    | none => pure op.cancelled
    | some receipt =>
      match receipt.admission_id with
      | none => pure op.cancelled
      | some admission_id => giveUp lib w { op with capacity_receipt := some receipt } admission_id

end Karajan.Tasks
