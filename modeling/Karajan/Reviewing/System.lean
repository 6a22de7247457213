import Mathlib.Algebra.Order.Ring.Rat
import Karajan.Lib.Check
import Karajan.Lib.Dict
import Karajan.Lib.Runs

/-!
# Executions of reviewers

A reviewer's execution is one row of a ledger of its own, beside the host that
prepares and starts it. The row holds the intent: an identity that is bound to
the operation, and what was recorded of it since.
-/

namespace Karajan.Reviewing

inductive LedgerError
  | inputChanged
  | sourceChanged
  | bindingInvalid
  | idempotencyConflict
  | alreadyPrepared
  | notPrepared
  | cancelled
  | launchInvalid
  | controlRevoked
  | hostPrepareRequired
  | hostBindingMismatch
  | runnerChanged
  | operationCancelled
  | startKeyInvalid
  | startKeyPayloadMismatch
  | attemptAlreadyPrepared
  | controlPreparedBindingMismatch
  | controlPreparedCancelled
  | controlPreparedRequired
  | controlAlreadyDifferent
  | runnerNotCurrent
  | refused (code : String)

-- Intents

structure Profile where
  id : String
  revision : Int
  binding : String
deriving DecidableEq

structure ReviewerInput where
  sha256 : String
  size : Nat
  (allowed_files check_evidence_ids : List String)
deriving DecidableEq

/-- What a compilation copies from the operation and the capacity it holds. -/
structure CompiledFacts where
  (worker_operation_id project_id task_id planned_attempt_id planned_context_id : String)
  (admission_id assessment_digest authorization_ref budget_ref : String)
  profile : Profile
  candidate : String
  reviewer_input : ReviewerInput
deriving DecidableEq

structure Binding extends CompiledFacts where
  (run_id reviewer_operation_id : String)
deriving DecidableEq

structure ReviewerExecutionSource where
  (runner_source_sha256 native_source_sha256 : String)
deriving DecidableEq

structure Identity extends Binding, ReviewerExecutionSource where
  (execution_id principal command_key : String)
  fence : Int
  start_key : String
deriving DecidableEq

structure ProcessSpec where
  argv : List String
  cwd : String
  timeout_seconds : Rat
deriving DecidableEq

structure ReviewerLaunchSpec where
  process_spec : ProcessSpec
  bootstrap_digest : String

structure LaunchDocument where
  (intent_digest bootstrap_digest : String)
  process_spec : ProcessSpec
deriving DecidableEq

structure Launch extends LaunchDocument where
  digest : String
deriving DecidableEq

structure ProcessIdentity where
  pid : Int
  birth : String
deriving DecidableEq

structure EffectClaim where
  intent_digest : String
  runner : ProcessIdentity
deriving DecidableEq

inductive Phase
  | prepared
  | hostPrepared
  | observerClaimed
  | cancellationPending
deriving DecidableEq

structure IntentBody extends Identity where
  binding_digest : String
  phase : Phase
  host_prepared_id : Option String
  effect_claim : Option EffectClaim
  cancel_requested : Bool
  launch : Option Launch
deriving DecidableEq

structure Intent extends IntentBody where
  intent_digest : String
deriving DecidableEq

structure Row where
  (execution_id run_id reviewer_operation_id principal command_key : String)
  intent : Intent
  state : Phase
deriving DecidableEq

abbrev Ledger := List Row

inductive Document
  | identity (identity : Identity)
  | intent (body : IntentBody)
  | launch (launch : LaunchDocument)

structure Library where
  digest : Document → String

-- The host

structure AttemptManifest where
  id : String
  fence : Int
  (role profile_id : String)
  profile_revision : Int
  (authorization_ref budget_ref : String)
  permissions : List String
  requested_binding : String
deriving DecidableEq

structure HostStatus where
  (started running cancelled : Bool)
  runner : Option ProcessIdentity

structure HostRow where
  attempt_id : String
  manifest : AttemptManifest
  spec : ProcessSpec
  status : HostStatus

structure Control where
  fence : Int
  authorization_ref : String
  dispatch_enabled : Bool

/-- The rows of the host under their start keys, and the controls of the attempts. -/
structure Host where
  executions : Dict String HostRow
  controls : Dict String Control

def Host.attempt? (h : Host) (attempt_id : String) : Option (String × HostRow) :=
  h.executions.entries.find? fun entry => entry.2.attempt_id = attempt_id

-- The ledger of reviewer executions

open Check
variable (lib : Library)

structure Ask where
  (run_id reviewer_operation_id principal : String)
deriving DecidableEq

-- Rows

def Row.binds (row : Row) : Bool :=
  row.intent.execution_id = row.execution_id && row.intent.run_id = row.run_id &&
    row.intent.reviewer_operation_id = row.reviewer_operation_id &&
    row.intent.principal = row.principal && row.intent.command_key = row.command_key &&
    row.intent.phase = row.state

/-- The intent of a row, whose columns it must bind; `ask` is whose it must be. -/
def decodeIntentRow (row : Row) (ask : Option Ask) : Except LedgerError Intent := do
  ensure (row.intent.intent_digest = lib.digest (.intent row.intent.toIntentBody) && row.binds)
    .bindingInvalid
  ensure (ask.all fun ask => row.intent.run_id = ask.run_id &&
    row.intent.reviewer_operation_id = ask.reviewer_operation_id &&
    row.intent.principal = ask.principal) .bindingInvalid
  return row.intent

/-- The row of an operation by its columns, or else by what its intent says. -/
def findIntentRow (ledger : Ledger) (ask : Ask) : Option Row :=
  (ledger.find? fun row => row.run_id = ask.run_id &&
    row.reviewer_operation_id = ask.reviewer_operation_id).or
  (ledger.find? fun row => row.intent.run_id = ask.run_id &&
    row.intent.reviewer_operation_id = ask.reviewer_operation_id &&
    row.intent.principal = ask.principal)

def load (ledger : Ledger) (ask : Ask) : Except LedgerError (Option Intent) :=
  match findIntentRow ledger ask with
  | none => .ok none
  | some row => some <$> decodeIntentRow lib row (some ask)

def Intent.sealed (body : IntentBody) : Intent :=
  { body with intent_digest := lib.digest (.intent body) }

def save (ledger : Ledger) (body : IntentBody) : Ledger := ledger.map fun row =>
    if row.execution_id = body.execution_id then
      { row with intent := Intent.sealed lib body, state := body.phase }
    else row

-- Guards

structure GuardWorld where
  /-- The source the caller was made with, and the one that is deployed. -/
  source : ReviewerExecutionSource
  current_source : Option ReviewerExecutionSource
  compiled : Except LedgerError CompiledFacts
  /-- What is compiled again while the guard is held, and the checks at the effect. -/
  held : Except LedgerError CompiledFacts
  boundary : Except LedgerError Unit

def GuardWorld.assertSource (w : GuardWorld) : Except LedgerError Unit :=
  ensure (w.current_source.all (· = w.source)) .sourceChanged

abbrev Cancelled := List (String × String)

/-- The guard of the admission, which a cancelled operation does not pass. -/
def effectGuard (cancelled : Cancelled) (ask : Ask) : Except LedgerError Unit :=
  ensure (!cancelled.contains (ask.run_id, ask.reviewer_operation_id)) .operationCancelled

def Intent.ask (intent : Intent) : Ask := ⟨intent.run_id, intent.reviewer_operation_id, intent.principal⟩

/-- The guard of what was prepared: it is still what is compiled now. -/
def currentGuard (cancelled : Cancelled) (w : GuardWorld) (value : Intent) : Except LedgerError Unit := do
  w.assertSource
  let compiled ← w.compiled
  ensure (value.toCompiledFacts = compiled && value.toReviewerExecutionSource = w.source) .inputChanged
  effectGuard cancelled value.ask
  w.boundary

-- Preparing

section
variable (ledger : Ledger)

def prepareRead (ask : Ask) (command_key : String) : Except LedgerError (Option Intent) := do
  let prior := ledger.find? fun row => row.principal = ask.principal && row.command_key = command_key
  let existing ← load lib ledger ask
  match prior with
  | some prior => do
    let prior ← decodeIntentRow lib prior none
    ensure (existing = some prior) .idempotencyConflict
    return existing
  | none => do
    ensure existing.isNone .alreadyPrepared
    return none

def startKey (reviewer_operation_id : String) : String := "reviewer-host-start:" ++ reviewer_operation_id

def newIdentity (ask : Ask) (command_key : String) (facts : CompiledFacts)
    (source : ReviewerExecutionSource) (execution_id : String) : Identity :=
  { facts, source with
    run_id := ask.run_id
    reviewer_operation_id := ask.reviewer_operation_id
    execution_id
    principal := ask.principal
    command_key
    fence := 1
    start_key := startKey ask.reviewer_operation_id }

def newIntent (identity : Identity) : Intent :=
  Intent.sealed lib { identity with
    binding_digest := lib.digest (.identity identity)
    phase := .prepared
    host_prepared_id := none
    effect_claim := none
    cancel_requested := false
    launch := none }

def Row.clashes (row row' : Row) : Bool :=
  row.execution_id = row'.execution_id ||
    row.principal = row'.principal && row.command_key = row'.command_key ||
    row.run_id = row'.run_id && row.reviewer_operation_id = row'.reviewer_operation_id

/-- What an insertion that clashes answers: the intent that is there, where it is the same command's. -/
def prepareReplay (ask : Ask) (command_key : String) : Except LedgerError Intent := do
  let existing ← load lib ledger ask
  let prior := ledger.find? fun row => row.principal = ask.principal && row.command_key = command_key
  let existing ← need existing .alreadyPrepared
  let prior ← need prior .alreadyPrepared
  ensure ((← decodeIntentRow lib prior none) = existing) .alreadyPrepared
  return existing

def newRow (ask : Ask) (command_key : String) (intent : Intent) : Row where
  execution_id := intent.execution_id
  run_id := ask.run_id
  reviewer_operation_id := ask.reviewer_operation_id
  principal := ask.principal
  command_key
  intent
  state := .prepared

def prepareInsert (cancelled : Cancelled) (ask : Ask) (command_key : String)
    (w : GuardWorld) (execution_id : String) : Except LedgerError (Ledger × Intent) := do
  let compiled ← w.compiled
  effectGuard cancelled ask
  ensure ((← w.held) = compiled) .inputChanged
  w.assertSource
  w.boundary
  let intent := newIntent lib (newIdentity ask command_key compiled w.source execution_id)
  let row := newRow ask command_key intent
  if ledger.any (·.clashes row) then
    return (ledger, ← prepareReplay lib ledger ask command_key)
  else
    return (ledger ++ [row], intent)

-- Cancelling

def cancelSave (ask : Ask) : Except LedgerError (Ledger × Option Intent) := do
  match ← load lib ledger ask with
  | none => return (ledger, none)
  | some value =>
    let body : IntentBody := { value with cancel_requested := true, phase := .cancellationPending }
    return (save lib ledger body, some (Intent.sealed lib body))

-- Launching

def hostManifest (intent : Intent) : AttemptManifest where
  id := intent.planned_attempt_id
  fence := intent.fence
  role := "reviewer"
  profile_id := intent.profile.id
  profile_revision := intent.profile.revision
  authorization_ref := intent.authorization_ref
  budget_ref := intent.budget_ref
  permissions := ["read"]
  requested_binding := intent.profile.binding

def launchDocument (intent : Intent) (spec : ReviewerLaunchSpec) : Except LedgerError Launch := do
  ensure (spec.bootstrap_digest.length = 64) .launchInvalid
  let document : LaunchDocument := ⟨intent.binding_digest, spec.bootstrap_digest, spec.process_spec⟩
  return { document with digest := lib.digest (.launch document) }

def freezeRead (ask : Ask) : Except LedgerError Intent := do
  let value ← need (← load lib ledger ask) .notPrepared
  ensure (!value.cancel_requested) .cancelled
  return value

/-- The launch of the snapshot, or the one that is compiled for it. -/
def frozenLaunch (compiler : Except LedgerError ReviewerLaunchSpec) (value : Intent) :
    Except LedgerError Launch :=
  match value.launch with
  | some launch => .ok launch
  | none => do launchDocument lib value (← compiler)

def validStartKey (start_key : String) : Bool := !start_key.isEmpty && start_key.length ≤ 256

def Host.put (host : Host) (start_key : String) (manifest : AttemptManifest) (spec : ProcessSpec) : Host :=
  let row : HostRow := ⟨manifest.id, manifest, spec, ⟨false, false, false, none⟩⟩
  { host with executions := host.executions.put start_key row }

/-- The host's row under the start key, which is found again by its attempt. -/
def Host.prepare (host : Host) (manifest : AttemptManifest) (start_key : String) (spec : ProcessSpec)
    (boundary : Except LedgerError Unit) : Except LedgerError (Host × String) := do
  ensure (validStartKey start_key) .startKeyInvalid
  match host.executions.get? start_key with
  | some old => do
    ensure (old.manifest = manifest && old.spec = spec) .startKeyPayloadMismatch
    let (prepared_id, _) ← need (host.attempt? manifest.id) .hostPrepareRequired
    return (host, prepared_id)
  | none => do
    boundary
    ensure (host.attempt? manifest.id).isNone .attemptAlreadyPrepared
    let host := host.put start_key manifest spec
    let (prepared_id, _) ← need (host.attempt? manifest.id) .hostPrepareRequired
    return (host, prepared_id)

/-- The control of what was prepared, and whether it allows a dispatch. -/
def Host.initializeControlOnce (host : Host) (attempt_id prepared_id : String) (fence : Int)
    (authorization_ref : String) (boundary : Except LedgerError Unit) : Except LedgerError (Host × Bool) := do
  let (start_key, row) ← need (host.attempt? attempt_id) .hostPrepareRequired
  ensure (start_key = prepared_id && row.manifest.id = attempt_id && row.manifest.fence = fence &&
    row.manifest.authorization_ref = authorization_ref) .controlPreparedBindingMismatch
  ensure (!row.status.cancelled) .controlPreparedCancelled
  match host.controls.get? attempt_id with
  | none => do
    ensure (!row.status.started) .controlPreparedRequired
    boundary
    return ({ host with controls := host.controls.put attempt_id ⟨fence, authorization_ref, true⟩ }, true)
  | some old => do
    ensure (old.fence = fence && old.authorization_ref = authorization_ref) .controlAlreadyDifferent
    return (host, old.dispatch_enabled)

def freezeSave (value : Intent) (launch : Launch) (prepared_id : String) :
    Except LedgerError (Ledger × Intent) := do
  let current ← need (← load lib ledger value.ask) .bindingInvalid
  ensure (current.execution_id = value.execution_id) .bindingInvalid
  let body : IntentBody := { current with
    launch := some launch
    host_prepared_id := some prepared_id
    phase := if current.cancel_requested then current.phase else .hostPrepared }
  return (save lib ledger body, Intent.sealed lib body)

-- Observing and claiming

/-- The snapshot that `inspect_host` answers; it writes nothing. -/
def inspectHost (host : Host) (ask : Ask) : Except LedgerError (Intent × String × HostStatus) := do
  let value ← need (← load lib ledger ask) .hostPrepareRequired
  let row ← need (host.executions.get? value.start_key) .hostPrepareRequired
  ensure (row.manifest = hostManifest value) .hostBindingMismatch
  let (prepared_id, found) ← need (host.attempt? value.planned_attempt_id) .hostPrepareRequired
  ensure (value.host_prepared_id.all (· = prepared_id)) .hostBindingMismatch
  return (value, prepared_id, found.status)

/-- The snapshot of a claim, and whether the effect is claimed already. -/
def claimRead (ask : Ask) : Except LedgerError (Intent × Bool) := do
  let value ← need (← load lib ledger ask) .hostPrepareRequired
  ensure value.host_prepared_id.isSome .hostPrepareRequired
  ensure (!value.cancel_requested) .cancelled
  return (value, value.effect_claim.isSome)

structure RunnerWorld where
  identity : Option ProcessIdentity
  contained : Bool

/-- The process that calls is the one the host runs for the attempt. -/
def Host.currentRunnerGuard (host : Host) (value : Intent) (launch : Launch) (w : RunnerWorld) :
    Except LedgerError ProcessIdentity := do
  let (_, row) ← need (host.attempt? value.planned_attempt_id) .runnerNotCurrent
  ensure (row.status.running && row.manifest = hostManifest value && row.spec = launch.process_spec)
    .runnerNotCurrent
  ensure (!row.status.cancelled && (host.controls.get? value.planned_attempt_id).any fun control =>
    control.dispatch_enabled && control.fence = value.fence &&
      control.authorization_ref = value.authorization_ref) .runnerNotCurrent
  let identity ← need w.identity .runnerNotCurrent
  ensure (row.status.runner = some identity && w.contained) .runnerNotCurrent
  return identity

/-- The claim itself: the ledger, the intent, and whether the effect is allowed. -/
def claimSave (host : Host) (cancelled : Cancelled) (value : Intent)
    (runner : ProcessIdentity) (w : GuardWorld) (process : RunnerWorld) :
    Except LedgerError (Ledger × Intent × Bool) := do
  currentGuard cancelled w value
  let launch ← need value.launch .bindingInvalid
  let current ← host.currentRunnerGuard value launch process
  ensure (current = runner) .runnerChanged
  let current ← need (← load lib ledger value.ask) .bindingInvalid
  ensure (current.execution_id = value.execution_id) .bindingInvalid
  ensure (!current.cancel_requested) .cancelled
  if current.effect_claim.isSome then
    return (ledger, current, false)
  else
    let body : IntentBody := { current with
      effect_claim := some ⟨current.intent_digest, runner⟩
      phase := .observerClaimed }
    return (save lib ledger body, Intent.sealed lib body, true)

end

end Karajan.Reviewing

-- Calls on reviewer executions

namespace Karajan.Reviewing

open Check
variable (lib : Library)

inductive Call
  | preparing (ask : Ask) (command_key : String)
  | freezing (value : Intent)
  | hosted (value : Intent) (launch : Launch) (prepared_id : String)
  | controlled (value : Intent) (launch : Launch) (prepared_id : String)
  | cancelling (ask : Ask)
  | cancelled (ask : Ask)
  | waiting (value : Intent)
  | claiming (value : Intent) (runner : ProcessIdentity)
deriving DecidableEq

structure State where
  ledger : Ledger
  host : Host
  cancelled : Cancelled
  calls : List Call

/-- What else is done at the host: others' attempts, controls, and what becomes of processes. -/
inductive HostChange
  | prepared (start_key : String) (manifest : AttemptManifest) (spec : ProcessSpec)
  | status (start_key : String) (status : HostStatus)
  | control (attempt_id : String) (control : Control)

def Host.change (host : Host) : HostChange → Host
  | .prepared start_key manifest spec =>
    if (host.executions.get? start_key).isSome || (host.attempt? manifest.id).isSome then host
    else host.put start_key manifest spec
  | .status start_key status =>
    { host with executions := host.executions.modify start_key ({ · with status }) }
  | .control attempt_id control => { host with controls := host.controls.put attempt_id control }

inductive Action
  | prepare (ask : Ask) (command_key : String)
  | insert (ask : Ask) (command_key : String) (w : GuardWorld) (execution_id : String)
  | freeze (ask : Ask)
  | prepareHost (value : Intent) (w : GuardWorld) (compiler : Except LedgerError ReviewerLaunchSpec)
  | initializeControl (value : Intent) (launch : Launch) (prepared_id : String)
      (boundary : Except LedgerError Unit)
  | saveFreeze (value : Intent) (launch : Launch) (prepared_id : String)
  | cancel (ask : Ask)
  /-- The admission's own cancellation, which may have been asked for before it refused. -/
  | cancelAdmission (ask : Ask) (asked answered : Bool)
  | saveCancel (ask : Ask)
  | inspect (ask : Ask)
  | claim (ask : Ask)
  | register (value : Intent) (runner : ProcessIdentity)
  | saveClaim (value : Intent) (runner : ProcessIdentity) (w : GuardWorld) (process : RunnerWorld)
  /-- A cancellation of the admission that is none of these calls'. -/
  | cancelOther (run_id reviewer_operation_id : String)
  | host (change : HostChange)
  | drop (call : Call)

namespace State

section
variable (s : State)

def calling (call : Call) : State := { s with calls := call :: s.calls }

def done (call : Call) : State := { s with calls := s.calls.erase call }

/-- Go on with what was answered; a refusal is the end of the call. -/
def after (answer : Except LedgerError α) (next : α → State) : State :=
  match answer with
  | .ok a => next a
  | .error _ => s

def resumed (call : Call) (answer : Except LedgerError α) (next : State → α → State) : State :=
  if call ∈ s.calls then (s.done call).after answer (next (s.done call)) else s

def preparing (ask : Ask) (command_key : String) : Option Intent → State
  | none => s.calling (.preparing ask command_key)
  | some _ => s

def hostPrepared (value : Intent) (w : GuardWorld)
    (compiler : Except LedgerError ReviewerLaunchSpec) : Except LedgerError (Host × Launch × String) := do
  currentGuard s.cancelled w value
  let launch ← frozenLaunch lib compiler value
  let (host, prepared_id) ← s.host.prepare (hostManifest value) value.start_key launch.process_spec
    w.boundary
  return (host, launch, prepared_id)

def initializeControl (value : Intent) (boundary : Except LedgerError Unit) : Except LedgerError (Host × Bool) :=
  s.host.initializeControlOnce value.planned_attempt_id value.start_key value.fence
    value.authorization_ref boundary

def claimAnswer (value : Intent) (runner : ProcessIdentity) (w : GuardWorld)
    (process : RunnerWorld) : Except LedgerError (Ledger × Intent × Bool) :=
  claimSave lib s.ledger s.host s.cancelled value runner w process

def cancelAdmission (run_id reviewer_operation_id : String) : State :=
  { s with cancelled := (run_id, reviewer_operation_id) :: s.cancelled }

def step : Action → State
  | .prepare ask command_key => s.after (prepareRead lib s.ledger ask command_key) (s.preparing ask command_key)
  | .insert ask command_key w execution_id =>
    s.resumed (.preparing ask command_key)
      (prepareInsert lib s.ledger s.cancelled ask command_key w execution_id)
      fun s (ledger, _) => { s with ledger }
  | .freeze ask => s.after (freezeRead lib s.ledger ask) fun value => s.calling (.freezing value)
  | .prepareHost value w compiler =>
    s.resumed (.freezing value) (s.hostPrepared lib value w compiler)
      fun s (host, launch, prepared_id) => { s with host }.calling (.hosted value launch prepared_id)
  | .initializeControl value launch prepared_id boundary =>
    s.resumed (.hosted value launch prepared_id) (s.initializeControl value boundary)
      fun s (host, enabled) =>
        if enabled then { s with host }.calling (.controlled value launch prepared_id)
        else { s with host }
  | .saveFreeze value launch prepared_id =>
    s.resumed (.controlled value launch prepared_id) (freezeSave lib s.ledger value launch prepared_id)
      fun s (ledger, _) => { s with ledger }
  | .cancel ask => s.after (load lib s.ledger ask) fun _ => s.calling (.cancelling ask)
  | .cancelAdmission ask asked answered =>
    s.resumed (.cancelling ask) (.ok ()) fun s _ =>
      let s := if asked || answered then s.cancelAdmission ask.run_id ask.reviewer_operation_id else s
      if answered then s.calling (.cancelled ask) else s
  | .saveCancel ask =>
    s.resumed (.cancelled ask) (cancelSave lib s.ledger ask) fun s (ledger, _) => { s with ledger }
  | .inspect _ => s
  | .claim ask =>
    s.after (claimRead lib s.ledger ask) fun (value, claimed) =>
      if claimed then s else s.calling (.waiting value)
  | .register value runner =>
    s.resumed (.waiting value) (.ok ()) fun s _ => s.calling (.claiming value runner)
  | .saveClaim value runner w process =>
    s.resumed (.claiming value runner) (s.claimAnswer lib value runner w process)
      fun s (ledger, _) => { s with ledger }
  | .cancelOther run_id reviewer_operation_id => s.cancelAdmission run_id reviewer_operation_id
  | .host change => { s with host := s.host.change change }
  | .drop call => s.done call

end

end State

def initial (s : State) : Prop := s.ledger = [] ∧ s.host = ⟨.empty, .empty⟩ ∧ s.cancelled = [] ∧ s.calls = []

def system : System State Action where
  initial := initial
  step := State.step lib

end Karajan.Reviewing
