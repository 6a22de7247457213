import Karajan.Candidates.History
import Karajan.Tasks.Intents

/-!
# Processes on operations

Any number of processes work on the operations of a run, each of them one
transaction at a time. A call that takes several is continued, or not, between
those of others; a transaction that is lost has done to the capacity store what
it did, and nothing else. While a guard is held, no transaction is served.
-/

namespace Karajan.Tasks

open Check
open Capacity (Clocked)
open Visit (lift)
variable (lib : Library)

/-- A call on one operation, with what the planner says to its principal. -/
structure Ask where
  (run_id operation_id principal : String)
  owner : Except TaskError Unit

inductive Call
  | activate (operation_id : String) (intent : ActivationIntent)
  | answered (operation_id : String) (intent : ActivationIntent) (answer : ActivationReceipt)
  | cancel (operation_id : String)
deriving DecidableEq

structure Held where
  operation_id : String
  guard : Guard
  execution : Execution

structure State where
  operations : Operations
  commands : Dict (String × String) CommandRow
  budgets : Admission.Budgets
  store : Clocked
  candidates : Candidates.State
  calls : List Call
  held : Option Held

/-- What a controller edits of an execution, with what it reads outside. -/
inductive Edit
  | freezeLaunch (source : GoExecutionSource) (compiler : Option (Except TaskError GoLaunchSpec))
  | observe (failure : Option Failure) (host : HostAnswer) (journal : Option JournalAnswer)
  | activationRecorded (source : GoExecutionSource) (moment : Moment)
  | hostPrepared (source : GoExecutionSource) (host : HostAnswer)
  | startUnknown (source : GoExecutionSource)
  | hostStarted (source : GoExecutionSource) (host : HostAnswer)
  | effectClaim (source : GoExecutionSource) (runner : ProcessIdentity)
  | capture (source : GoExecutionSource) (runner : ProcessIdentity) (capture : GoTaskCaptureReceipt lib)
  | candidate (capture_digest candidate_id : String)

/-- A claim of a check or a reviewer; a writer's is made with its intent. -/
structure OtherClaim where
  run : RunDocument
  (operation_id attempt_id : String)
  scope : Admission.Scope
  foreign : scope ≠ .writer
  now : Admission.Reading

inductive Action
  | other (command : OtherCommand)
  | candidates (action : Candidates.Action)
  | claim (claim : OtherClaim)
  | enqueue (ask : Ask) (task_id command_key : String) (w : EnqueueWorld)
  | get (ask : Ask) (w : RefreshWorld)
  | advance (ask : Ask) (w : AdvanceWorld)
  | intendActivation (ask : Ask) (w : ActivateWorld)
  | sendActivation (operation_id : String) (intent : ActivationIntent) (moment : Moment)
      (w : Capacity.World)
  | storeActivation (operation_id : String) (intent : ActivationIntent) (answer : ActivationReceipt)
      (w : RefreshWorld)
  | requestCancel (ask : Ask)
  | finishCancel (operation_id : String) (w : CancelWorld)
  | prepareWorkspace (ask : Ask) (w : WorkspaceWorld)
  | prepareIntent (ask : Ask) (command_key : String) (source : GoExecutionSource) (w : IntentWorld)
  | edit (ask : Ask) (edit : Edit lib)
  | enter (ask : Ask) (source : GoExecutionSource) (w : IntentWorld) (guard : Guard)
  | activateExecution (moment : Moment) (w : Capacity.World)
  | leave
  | drop (call : Call)
  | lost (action : Action)

-- Transactions

variable {lib}

def runEdit (candidates : Candidates.Store) (op : Operation) : Edit lib → Visiting Operation
  | .freezeLaunch source compiler => lift do
    freezeLaunch lib compiler op (← checkExecution lib (some source) op)
  | .observe failure host journal => lift do
    observeExecution lib failure host journal op (← checkExecution lib none op)
  | .activationRecorded source moment => do
    let execution ← lift (checkExecution lib (some source) op)
    let intent := execution.intent
    match ← readReceipt lib moment intent.activation_key (.activate intent.admission_id) with
    | none => lift (activationRecorded none op execution)
    | some result => do
      let receipt ← lift (activation intent.admission_id result)
      lift (activationRecorded (some receipt) op execution)
  | .hostPrepared source host => lift do
    recordHostPrepared host op (← checkExecution lib (some source) op)
  | .startUnknown source => lift do
    markStartUnknown op (← checkExecution lib (some source) op)
  | .hostStarted source host => lift do
    hostStarted host op (← checkExecution lib (some source) op)
  | .effectClaim source runner => lift do
    checkRunner runner
    Prod.fst <$> effectStartClaim runner op (← checkExecution lib (some source) op)
  | .capture source runner capture => lift do
    checkRunner runner
    captureRecorded lib source runner capture op (← checkExecution lib none op)
  | .candidate capture_digest candidate_id => lift do
    candidateRecorded lib candidates capture_digest candidate_id op (← checkExecution lib none op)

variable (lib)

def Ask.check (ask : Ask) : Except TaskError Unit := do
  ensure (lib.identifier ask.run_id && lib.identifier ask.operation_id && lib.identifier ask.principal)
    .commandIdentityInvalid
  ask.owner

namespace State

/-- The beginning of a transaction, which waits for the guard that is held. -/
def begun (s : State) : Except TaskError Unit := ensure s.held.isNone (.refused "database is locked")

/-- The operation of a call, at the beginning of its transaction. -/
def opened (s : State) (ask : Ask) : Except TaskError Operation := do
  ask.check lib
  s.begun
  s.operations.load ask.run_id ask.operation_id

def continued (s : State) (operation_id : String) : Except TaskError Operation := do
  s.begun
  need (s.operations.get? operation_id) .admissionNotFound

def saved (s : State) : Except TaskError Operation × Clocked → State
  | (.ok op, store) => { s with operations := s.operations.put op.id op, store }
  | (.error _, store) => { s with store }

def queued (s : State) (key : String × String) (payload : Payload) :
    Except TaskError (Operations × Operation) × Clocked → State
  | (.ok (operations, op), store) =>
    { s with operations, store, commands := s.commands.put key ⟨payload, op⟩ }
  | (.error _, store) => { s with store }

def answerable (s : State) (key : String × String) (payload : Payload) : Except TaskError Bool :=
  match s.commands.get? key with
  | none => .ok true
  | some row => do
    ensure (row.payload = payload) .idempotencyConflict
    return false

def enqueue (s : State) (ask : Ask) (task_id command_key : String) (w : EnqueueWorld) :
    Visiting (Operations × Operation) := do
  lift (ensure (lib.identifier ask.run_id && lib.identifier task_id &&
    lib.identifier ask.principal && lib.identifier command_key) .commandIdentityInvalid)
  lift ask.owner
  lift s.begun
  queue lib w ask.run_id task_id ask.principal s.operations

def intent (s : State) (ask : Ask) (source : GoExecutionSource) (w : IntentWorld) (op : Operation) :
    Except TaskError (Operation × Admission.Budgets) :=
  if op.execution.isSome then do
    let _ ← checkExecution lib (some source) op
    return (op, s.budgets)
  else do
    let (op, budgets) ← prepareIntent lib source w s.operations s.budgets ask.principal op
    return (op, some budgets)

def prepared (s : State) (ask : Ask) (command_key : String) (source : GoExecutionSource)
    (w : IntentWorld) : Except TaskError State := do
  let payload := Payload.prepare ask.run_id ask.operation_id source
  let key := (ask.principal, command_key)
  ensure (lib.identifier command_key) .commandIdentityInvalid
  let op ← s.opened lib ask
  let new ← s.answerable key payload
  let (op, budgets) ← s.intent lib ask source w op
  return { s with
    operations := s.operations.put op.id op
    budgets
    commands := if new then s.commands.put key ⟨payload, op⟩ else s.commands }

def effectAnswer (s : State) (ask : Ask) (source : GoExecutionSource) (runner : ProcessIdentity) :
    Except TaskError (Operation × Bool) := do
  let op ← s.opened lib ask
  checkRunner runner
  effectStartClaim runner op (← checkExecution lib (some source) op)

def entered (s : State) (ask : Ask) (source : GoExecutionSource) (w : IntentWorld) (guard : Guard) :
    Except TaskError Held := do
  let op ← s.opened lib ask
  let (execution, _) ← enterGuard lib source w s.budgets ask.principal guard op
  return ⟨op.id, guard, execution⟩

def claimed (s : State) (c : OtherClaim) : Except TaskError (Dict String Admission.RunExecutionBudget) := do
  let op ← s.continued c.operation_id
  claimProcess s.operations s.budgets c.run op c.attempt_id c.scope c.now

def heldActivation (s : State) : Option Execution := s.held.bind fun held =>
    match held.guard with
    | .activation => some held.execution
    | .launchPreparation | .startup | .effectClaim _ | .capture _ _ => none

def orElse (s : State) : Except TaskError State → State
  | .ok t => t
  | .error _ => s

-- Steps

def calling (s : State) (call : Option Call) : State := { s with calls := call.toList ++ s.calls }

def done (s : State) (call : Call) : State := { s with calls := s.calls.erase call }

def intendedActivation (s : State) (operation_id : String) :
    Except TaskError (Operation × Option ActivationIntent) × Clocked → State
  | (.ok (op, intent), store) =>
    { s with operations := s.operations.put op.id op, store }.calling
      (intent.map (Call.activate operation_id))
  | (.error _, store) => { s with store }

def answered (s : State) (operation_id : String) (intent : ActivationIntent) :
    Except TaskError ActivationReceipt × Clocked → State
  | (.ok answer, store) => { s with store }.calling (some (.answered operation_id intent answer))
  | (.error _, store) => { s with store }

/-- The cancellation that is asked for, and the call that goes on with it. -/
def cancelling (s : State) (op : Operation) : State :=
  { s with operations := s.operations.put op.id op.requestCancel }.calling
    (if op.execution.isNone && op.state ≠ OperationState.cancelled then some (.cancel op.id) else none)

def step (s : State) : Action lib → State
  | .other command => { s with store := command.send lib s.store }
  | .candidates action => { s with candidates := Candidates.step lib.candidates s.candidates action }
  | .claim c => s.orElse ((fun budgets => { s with budgets := some budgets }) <$> s.claimed c)
  | .enqueue ask task_id command_key w =>
    if s.commands.contains (ask.principal, command_key) then s
    else s.queued (ask.principal, command_key) (.enqueue ask.run_id task_id)
      (s.enqueue lib ask task_id command_key w s.store)
  | .get ask w => s.saved ((do refresh lib w (← lift (s.opened lib ask))) s.store)
  | .advance ask w => s.saved
    ((do advance lib w s.operations ask.principal (← lift (s.opened lib ask))) s.store)
  | .intendActivation ask w => s.intendedActivation ask.operation_id
    ((do intendActivation lib w s.operations (← lift (s.opened lib ask))) s.store)
  | .sendActivation operation_id intent moment w =>
    if .activate operation_id intent ∈ s.calls then
      (s.done (.activate operation_id intent)).answered operation_id intent
        ((do lift (activation intent.admission_id
          (← send lib moment intent.command_key (.activate intent.admission_id) w))) s.store)
    else s
  | .storeActivation operation_id intent answer w =>
    if .answered operation_id intent answer ∈ s.calls then
      (s.done (.answered operation_id intent answer)).saved
        ((do storeActivation lib w intent answer (← lift (s.continued operation_id))) s.store)
    else s
  | .requestCancel ask => s.orElse (s.cancelling <$> s.opened lib ask)
  | .finishCancel operation_id w =>
    if .cancel operation_id ∈ s.calls then
      (s.done (.cancel operation_id)).saved
        ((do finishCancel lib w (← lift (s.continued operation_id))) s.store)
    else s
  | .prepareWorkspace ask w => s.saved
    ((do prepareWorkspace lib w ask.principal (← lift (s.opened lib ask))) s.store)
  | .prepareIntent ask command_key source w => s.orElse (s.prepared lib ask command_key source w)
  | .edit ask edit => s.saved
    ((do runEdit s.candidates.store (← lift (s.opened lib ask)) edit) s.store)
  | .enter ask source w guard => s.orElse
    ((fun held => { s with held := some held }) <$> s.entered lib ask source w guard)
  | .activateExecution moment w =>
    match s.heldActivation with
    | none => s
    | some execution =>
      { s with store := (send lib moment execution.intent.activation_key
          (.activate execution.intent.admission_id) w s.store).2 }
  | .leave => { s with held := none }
  | .drop call => s.done call
  | .lost action => { s with store := (s.step action).store }

end State

def initial (s : State) : Prop :=
  s.operations = .empty ∧ s.commands = .empty ∧ (s.budgets = none ∨ s.budgets = some .empty) ∧
    s.store.state = .empty ∧ s.candidates = Candidates.empty ∧ s.calls = [] ∧ s.held = none

def system : System State (Action lib) where
  initial := initial
  step := State.step lib

variable {lib}

def Action.identity? : Action lib → Option String
  | .enqueue _ _ _ w => some w.identity
  | .lost action => action.identity?
  | .other _ | .candidates _ | .claim _ | .get .. | .advance .. | .intendActivation ..
  | .sendActivation .. | .storeActivation .. | .requestCancel _ | .finishCancel ..
  | .prepareWorkspace .. | .prepareIntent .. | .edit .. | .enter .. | .activateExecution .. | .leave
  | .drop _ => none

/-- A step that cancels, one that begins an execution, or any other one. -/
inductive Kind
  | plain
  | cancel
  | execute

def Action.kind : Action lib → Kind
  | .requestCancel _ | .finishCancel .. => .cancel
  | .prepareIntent .. => .execute
  | .other _ | .candidates _ | .claim _ | .enqueue .. | .get .. | .advance .. | .intendActivation ..
  | .sendActivation .. | .storeActivation .. | .prepareWorkspace .. | .edit .. | .enter ..
  | .activateExecution .. | .leave | .drop _ | .lost _ => .plain

def Drawn (s : State) (a : Action lib) : Prop := a.identity?.all (!s.operations.contains ·) = true

end Karajan.Tasks
