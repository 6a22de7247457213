import Karajan.Execution.Manifest
import Karajan.Lib.Dict
import Karajan.Lib.Runs

/-!
# The runner host

The host keeps one row for each prepared attempt. Starting it is two
transactions, the spawn of a supervisor and an acknowledgement; the supervisor
has a transaction of its own before it starts the tool. The control of an
attempt may be rewritten between any two of these.

Every operation below is one transaction: it returns the tables it commits, or
the reason it was refused for.
-/

namespace Karajan.Execution

open Check

-- Tables

structure ProcessIdentity where
  pid : Nat
  birth : String
deriving DecidableEq

inductive RowState
  | prepared
  | accepted
  | starting
  | cancelledUnstarted
  | running
  | finished
deriving DecidableEq

inductive LaunchPhase
  | prepared
  | accepted
  | activated
  | denied
  | acknowledged

inductive BusinessStatus
  | pending
  | done
  | cancelled
deriving DecidableEq

structure Row where
  (attempt_id request_digest : String)
  manifest : HostManifest
  spec : ProcessSpec
  state : RowState
  activation : Option Activation
  activation_digest : Option String
  nonce : String
  supervisor : Option ProcessIdentity
  containment_ready : Bool
  exit_code : Option Int
  cancelled : Bool
  launch_phase : LaunchPhase
  business_status : BusinessStatus
  usage_settled : Bool
  usage_sequence : Nat
  runner : Option ProcessIdentity

structure Control where
  fence : Int
  authorization_ref : String
  dispatch_enabled : Bool

inductive Reason
  | accepted
  | resultNotCurrent

structure ResultDecision where
  accepted : Bool
  reason : Reason

structure ResultRow where
  payload : String
  decision : ResultDecision

structure UsageRow where
  sequence : Nat
  fence : Int
  payload : String

structure Tables where
  executions : Dict String Row
  controls : Dict String Control
  /-- Under the cancel key, the attempt it cancelled. -/
  cancellations : Dict String String
  results : Dict (String × String) ResultRow
  usage_events : Dict (String × String) UsageRow

def Tables.empty : Tables := ⟨.empty, .empty, .empty, .empty, .empty⟩

def Tables.attempt? (t : Tables) (attempt_id : String) : Option (String × Row) :=
  t.executions.entries.find? fun entry => entry.2.attempt_id = attempt_id

def Tables.update (t : Tables) (start_key : String) (f : Row → Row) : Tables :=
  { t with executions := t.executions.modify start_key f }

def dispatches (control : Option Control) (manifest : HostManifest) : Bool :=
  match control with
  | some control => control.dispatch_enabled && control.fence = manifest.fence &&
      control.authorization_ref = manifest.authorization_ref
  | none => false

-- Preparation and control

structure Preparation where
  manifest : HostManifest
  start_key : String
  spec : ProcessSpec
  /-- What the working directory resolves to, none where it is not a directory. -/
  directory : Option String
  nonce : String
  (before_nonce before_write : Except Fault Unit)

def Preparation.row (p : Preparation) (spec : ProcessSpec) (digest : String) : Row where
  attempt_id := p.manifest.id
  request_digest := digest
  manifest := p.manifest
  spec := spec
  state := .prepared
  activation := none
  activation_digest := none
  nonce := p.nonce
  supervisor := none
  containment_ready := false
  exit_code := none
  cancelled := false
  launch_phase := .prepared
  business_status := .pending
  usage_settled := false
  usage_sequence := 0
  runner := none

def validStartKey (start_key : String) : Bool := !start_key.isEmpty && start_key.length ≤ 256

section
variable (L : Library)

def prepare (p : Preparation) (t : Tables) : Except Fault Tables := do
  ensure (validStartKey p.start_key) .startKeyInvalid
  ensure (p.manifest.valid L) .contract
  let spec ← p.spec.resolve p.directory
  let digest := L.sha256 (L.encoded (.list [p.manifest.document, spec.document]))
  match t.executions.get? p.start_key with
  | some old =>
    ensure (old.request_digest = digest) .startKeyPayloadMismatch
    return t
  | none =>
    p.before_nonce
    p.before_write
    ensure (t.attempt? p.manifest.id).isNone .attemptAlreadyPrepared
    return { t with executions := t.executions.put p.start_key (p.row spec digest) }

def setControl (attempt_id : String) (control : Control) (t : Tables) : Except Fault Tables := do
  ensure (L.identifier attempt_id && L.identifier control.authorization_ref) .contract
  ensure (0 < control.fence) .contract
  if let some old := t.controls.get? attempt_id then
    ensure (old.fence ≤ control.fence) .controlFenceRegression
  return { t with controls := t.controls.put attempt_id control }

structure ControlReceipt where
  (attempt_id prepared_id : String)
  fence : Int
  authorization_ref : String
  (dispatch_enabled inserted activation_allowed : Bool)

def initializeControlOnce (attempt_id prepared_id : String) (fence : Int)
    (authorization_ref : String) (before_write : Except Fault Unit) (t : Tables) :
    Except Fault (Tables × ControlReceipt) := do
  ensure ([attempt_id, prepared_id, authorization_ref].all L.identifier) .contract
  ensure (0 < fence) .contract
  let (start_key, row) ← need (t.attempt? attempt_id) .attemptUnknown
  ensure (start_key = prepared_id && row.manifest.id = attempt_id && row.manifest.fence = fence &&
    row.manifest.authorization_ref = authorization_ref) .controlPreparedBindingMismatch
  ensure (!row.cancelled) .controlPreparedCancelled
  match t.controls.get? attempt_id with
  | none =>
    ensure (row.state = .prepared && row.activation.isNone) .controlPreparedRequired
    before_write
    let controls := t.controls.put attempt_id ⟨fence, authorization_ref, true⟩
    return ({ t with controls }, ⟨attempt_id, prepared_id, fence, authorization_ref, true, true, false⟩)
  | some old =>
    ensure (old.fence = fence && old.authorization_ref = authorization_ref) .controlAlreadyDifferent
    return (t, ⟨attempt_id, prepared_id, fence, authorization_ref, old.dispatch_enabled, false, false⟩)

-- Starting

structure Starting where
  prepared_id : String
  attempt : HostManifest
  activation : Activation

def Row.accept (row : Row) (L : Library) (activation : Activation) : Row :=
  { row with
    state := .accepted
    launch_phase := .accepted
    activation := some activation
    activation_digest := some (activation.digest L) }

/-- The first transaction of a start; a replay has nothing more to do. -/
def start (prepared_id : String) (activation : Activation) (now : Rat) (t : Tables) :
    Except Fault (Tables × Option Starting) := do
  let activation ← activation.construct L
  ensure activation.expires_at.isSome .activationExpiryInvalid
  let row ← need (t.executions.get? prepared_id) .preparedUnknown
  match row.activation_digest with
  | some digest =>
    ensure (digest = activation.digest L) .activationPayloadMismatch
    return (t, none)
  | none =>
    ensure (!row.cancelled && dispatches (t.controls.get? row.manifest.id) row.manifest &&
      activation.binds row.manifest && activation.unexpired now) .activationNotCurrent
    return (t.update prepared_id (·.accept L activation), some ⟨prepared_id, row.manifest, activation⟩)

def Row.activate (row : Row) (allowed : Bool) : Row :=
  { row with
    state := if allowed then .starting else .cancelledUnstarted
    launch_phase := if allowed then .activated else .denied }

/-- What the second transaction of a start finds, and whether it allows the spawn. -/
def allowed (starting : Starting) (now : Rat) (t : Tables) : Except Fault Bool := do
  let current ← need (t.executions.get? starting.prepared_id) .missing
  return !current.cancelled &&
    dispatches (t.controls.get? starting.attempt.id) starting.attempt &&
    starting.activation.unexpired now

def activate (starting : Starting) (now : Rat) (t : Tables) : Except Fault (Tables × Bool) := do
  let allowed ← allowed starting now t
  return (t.update starting.prepared_id (·.activate allowed), allowed)

def Row.acknowledge (row : Row) (identity : Option ProcessIdentity) : Row :=
  { row with launch_phase := .acknowledged, supervisor := row.supervisor.or identity }

def acknowledge (prepared_id : String) (identity : Option ProcessIdentity) (t : Tables) : Tables :=
  t.update prepared_id (·.acknowledge identity)

-- The supervisor

/-- What the supervisor's own transaction finds, and whether it may start the tool; `row` is the
row it read when it began. -/
def mayLaunch (start_key : String) (row : Row) (now : Rat) (t : Tables) : Except Fault Bool := do
  let current ← need (t.executions.get? start_key) .missing
  if current.cancelled || !dispatches (t.controls.get? row.manifest.id) row.manifest then
    return false
  else
    let activation ← need current.activation .missing
    return activation.unexpired now

def Row.authorise (row : Row) (identity : ProcessIdentity) (may_launch : Bool) : Row :=
  if row.state = .starting then
    { row with
      supervisor := some identity
      containment_ready := true
      state := if may_launch then .running else .finished }
  else row

def authorise (start_key : String) (row : Row) (identity : ProcessIdentity) (now : Rat)
    (t : Tables) : Except Fault (Tables × Bool) := do
  let may_launch ← mayLaunch start_key row now t
  return (t.update start_key (·.authorise identity may_launch), may_launch)

/-- The tool's identity is written once, by the supervisor of the row. -/
def Row.register (row : Row) (runner identity : ProcessIdentity) : Row :=
  if row.state = .running && row.runner.isNone && row.supervisor = some identity then
    { row with runner := some runner }
  else row

def Row.finish (row : Row) (exit_code : Int) : Row :=
  { row with state := .finished, exit_code := some exit_code }

-- Cancellation

def Row.cancel (row : Row) : Row :=
  { row with
    cancelled := true
    business_status := if row.business_status = .pending then .cancelled else row.business_status
    state := if row.state = .prepared then .cancelledUnstarted else row.state }

def Control.disable (control : Control) : Control := { control with dispatch_enabled := false }

def bindingDocument (start_key : String) (row : Row) : Json :=
  .object [("prepared_id", .str start_key), ("manifest", row.manifest.document),
    ("process_spec", row.spec.document)]

def checkBinding (start_key : String) (row : Row) : Option Fields → Except Fault Unit
  | none => .ok ()
  | some expected => do
    ensure ((expected.map Prod.fst).isPerm ["prepared_id", "manifest", "process_spec"])
      .cancellationBindingMismatch
    ensure (L.encoded (.object expected) = L.encoded (bindingDocument start_key row))
      .cancellationBindingMismatch

/-- The transaction of a cancellation; what follows it only ends processes and looks at them. -/
def cancel (attempt_id cancel_key : String) (timeout_seconds : Option Rat)
    (expected_binding : Option Fields) (t : Tables) : Except Fault Tables := do
  ensure (!cancel_key.isEmpty && timeout_seconds.any (0 ≤ ·)) .cancelInvalid
  let (start_key, row) ← need (t.attempt? attempt_id) .attemptUnknown
  checkBinding L start_key row expected_binding
  if let some previous := t.cancellations.get? cancel_key then
    ensure (previous = attempt_id) .cancelKeyPayloadMismatch
  return {
    t.update start_key Row.cancel with
    cancellations := t.cancellations.put cancel_key attempt_id
    controls := t.controls.modify attempt_id Control.disable }

-- Results and usage

def resultPayload (fence : Int) (result : Fields) : String :=
  L.encoded (.object [("fence", .int fence), ("result", .object result)])

/-- The control still has the fence the result came under, which is the attempt's. -/
def currentFence (control : Option Control) (manifest : HostManifest) (fence : Int) : Bool :=
  match control with
  | some control => fence = manifest.fence && manifest.fence = control.fence &&
      control.authorization_ref = manifest.authorization_ref
  | none => false

def acceptsResult (row : Row) (control : Option Control) (fence : Int) : Bool :=
  !row.cancelled && row.business_status = .pending && currentFence control row.manifest fence &&
    (row.state = .running || row.state = .finished)

def decision (accepted : Bool) : ResultDecision := ⟨accepted, if accepted then .accepted else .resultNotCurrent⟩

def receiveResult (attempt_id : String) (fence : Int) (event_id : String)
    (result : Fields) (t : Tables) : Except Fault (Tables × ResultDecision) := do
  ensure (L.identifier attempt_id && L.identifier event_id && 0 < fence) .contract
  let payload := resultPayload L fence result
  let (start_key, row) ← need (t.attempt? attempt_id) .attemptUnknown
  match t.results.get? (attempt_id, event_id) with
  | some existing =>
    ensure (existing.payload = payload) .resultEventPayloadMismatch
    return (t, existing.decision)
  | none =>
    let decided := decision (acceptsResult row (t.controls.get? attempt_id) fence)
    let results := t.results.put (attempt_id, event_id) ⟨payload, decided⟩
    if decided.accepted then
      return ({ t.update start_key ({ · with business_status := .done }) with results }, decided)
    else
      return ({ t with results }, decided)

def Row.recordUsage (row : Row) (sequence : Nat) : Row :=
  { row with usage_sequence := sequence, usage_settled := false }

def recordUsage (attempt_id : String) (fence : Int) (event_id : String)
    (usage : Fields) (t : Tables) : Except Fault Tables := do
  ensure (L.identifier attempt_id && L.identifier event_id && 0 < fence) .contract
  let payload := L.encoded (.object usage)
  let (start_key, row) ← need (t.attempt? attempt_id) .attemptUnknown
  match t.usage_events.get? (attempt_id, event_id) with
  | some old =>
    ensure (old.fence = fence && old.payload = payload) .usageEventPayloadMismatch
    return t
  | none =>
    let sequence := row.usage_sequence + 1
    ensure (t.usage_events.entries.all fun ((attempt, _), event) =>
      attempt ≠ attempt_id || event.sequence ≠ sequence) .integrity
    return {
      t.update start_key (·.recordUsage sequence) with
      usage_events := t.usage_events.put (attempt_id, event_id) ⟨sequence, fence, payload⟩ }

def settleUsage (attempt_id : String) (through_sequence : Int) (t : Tables) : Except Fault Tables := do
  let (start_key, row) ← need (t.attempt? attempt_id) .attemptUnknown
  ensure (through_sequence = row.usage_sequence) .usageSequenceChanged
  return t.update start_key ({ · with usage_settled := true })

-- The guard of a capture

structure FenceReceipt where
  (attempt_id prepared_id : String)
  fence : Int
  authorization_ref : String
  subject : Json
  activation_id : String
  activation_allowed : Bool

def HostManifest.subject : HostManifest → Json
  | .check m => .object [("environment", .object [("id", .str m.environment_id),
      ("revision", .int m.environment_revision), ("source_sha256", .str m.environment_source_sha256)]),
      ("execution_sha256", .str m.execution_sha256)]
  | .model m => .object [("profile", .object [("id", .str m.profile_id), ("revision", .int m.profile_revision)])]

def Row.captureReady (row : Row) : Bool :=
  (row.state = .running || row.state = .finished) && row.containment_ready &&
    row.activation.isSome && row.activation_digest.isSome &&
    !(row.state = .finished && row.exit_code.isNone)

/-- Who may capture the work of an attempt; the expected documents are compared as texts. -/
def currentFenceGuard (attempt_id : String) (fence : Int) (authorization_ref : String)
    (expected : Option (HostManifest × ProcessSpec)) (t : Tables) : Except Fault FenceReceipt := do
  ensure (L.identifier attempt_id && L.identifier authorization_ref && 0 < fence) .contract
  let (start_key, row) ← need (t.attempt? attempt_id) .attemptUnknown
  ensure row.captureReady .captureStartRequired
  let activation ← need row.activation .captureStartBindingInvalid
  ensure (row.activation_digest = some (activation.digest L) && activation.expires_at.isSome &&
    activation.binds row.manifest && row.manifest.id = attempt_id) .captureStartBindingInvalid
  if let some (manifest, spec) := expected then
    ensure (L.encoded row.manifest.document = L.encoded manifest.document &&
      L.encoded row.spec.document = L.encoded spec.document) .capturePreparedBindingMismatch
  let control := t.controls.get? attempt_id
  ensure (!row.cancelled && control.any (·.dispatch_enabled) &&
    currentFence control row.manifest fence && authorization_ref = row.manifest.authorization_ref)
    .captureFenceNotCurrent
  return ⟨row.manifest.id, start_key, row.manifest.fence, row.manifest.authorization_ref,
    row.manifest.subject, activation.id, false⟩

-- Starts and supervisors

-- Processes

inductive StartStage
  | accepted
  | activated
  | spawned
  | ended

inductive SupervisorStage
  | begun
  /-- The row was read, and the process is in its group. -/
  | grouped (row : Row) (identity : ProcessIdentity)
  | authorised (row : Row) (identity : ProcessIdentity)
  /-- The tool runs; its identity is not written yet. -/
  | launched (identity : ProcessIdentity) (runner : Option ProcessIdentity)
  | watching
  | exited (exit_code : Int)
  | ended

structure State where
  tables : Tables
  starts : List (Starting × StartStage)
  /-- The start keys the supervisors were spawned with. -/
  supervisors : List (String × SupervisorStage)

def State.empty : State := ⟨.empty, [], []⟩

structure World where
  now : Rat
  /-- The process that was spawned, or is looked at. -/
  identity : Option ProcessIdentity
  (succeeds late : Bool)
  exited : Option Int

-- Steps of a start

def advanceStart (w : World) (s : State) (starting : Starting) : StartStage → State × StartStage
  | .accepted =>
    match activate starting w.now s.tables with
    | .ok (tables, true) => ({ s with tables }, .activated)
    | .ok (tables, false) => ({ s with tables }, .ended)
    | .error _ => (s, .ended)
  | .activated =>
    if w.succeeds then
      ({ s with supervisors := s.supervisors ++ [(starting.prepared_id, .begun)] }, .spawned)
    else (s, .ended)
  | .spawned => ({ s with tables := acknowledge starting.prepared_id w.identity s.tables }, .ended)
  | .ended => (s, .ended)

def State.advanceStart (s : State) (index : Nat) (w : World) : State :=
  match s.starts[index]? with
  | some (starting, stage) =>
    let (s, stage) := Execution.advanceStart w s starting stage
    { s with starts := s.starts.set index (starting, stage) }
  | none => s

-- Steps of a supervisor

def enter (w : World) (t : Tables) (start_key : String) : SupervisorStage :=
  match t.executions.get? start_key, w.identity with
  | some row, some identity =>
    if row.state = .starting && w.succeeds then .grouped row identity else .ended
  | _, _ => .ended

def cancelledRow (t : Tables) (start_key : String) : Bool := (t.executions.get? start_key).all (·.cancelled)

def advanceSupervisor (w : World) (t : Tables) (start_key : String) : SupervisorStage → Tables × SupervisorStage
  | .begun => (t, enter w t start_key)
  | .grouped row identity =>
    match authorise start_key row identity w.now t with
    | .ok (tables, true) => (tables, .authorised row identity)
    | .ok (tables, false) => (tables, .ended)
    | .error _ => (t, .ended)
  | .authorised _ identity =>
    if w.succeeds then (t, .launched identity w.identity) else (t, .ended)
  | .launched identity runner =>
    match runner with
    | some runner => (t.update start_key (·.register runner identity), .watching)
    | none => (t, .watching)
  | .watching =>
    if cancelledRow t start_key || w.late then (t, .ended)
    else match w.exited with
      | some exit_code => (t, .exited exit_code)
      | none => (t, .watching)
  | .exited exit_code => (t.update start_key (·.finish exit_code), .ended)
  | .ended => (t, .ended)

def State.advanceSupervisor (s : State) (index : Nat) (w : World) : State :=
  match s.supervisors[index]? with
  | some (start_key, stage) =>
    let (tables, stage) := Execution.advanceSupervisor w s.tables start_key stage
    { s with tables, supervisors := s.supervisors.set index (start_key, stage) }
  | none => s

-- The system

inductive Action
  | prepare (p : Preparation)
  | setControl (attempt_id : String) (control : Control)
  | initializeControlOnce (attempt_id prepared_id : String) (fence : Int)
      (authorization_ref : String) (before_write : Except Fault Unit)
  | start (prepared_id : String) (activation : Activation) (now : Rat)
  | advanceStart (index : Nat) (w : World)
  | advanceSupervisor (index : Nat) (w : World)
  | cancel (attempt_id cancel_key : String) (timeout_seconds : Option Rat)
      (expected_binding : Option Fields)
  | receiveResult (attempt_id : String) (fence : Int) (event_id : String) (result : Fields)
  | recordUsage (attempt_id : String) (fence : Int) (event_id : String) (usage : Fields)
  | settleUsage (attempt_id : String) (through_sequence : Int)
  | crashStart (index : Nat)
  | crashSupervisor (index : Nat)

/-- A transaction that is refused leaves the tables as they were. -/
def commit (t : Tables) : Except Fault Tables → Tables
  | .ok t' => t'
  | .error _ => t

def State.start (s : State) (prepared_id : String) (activation : Activation) (now : Rat) : State :=
  match Execution.start L prepared_id activation now s.tables with
  | .ok (tables, some starting) =>
    { s with tables, starts := s.starts ++ [(starting, .accepted)] }
  | _ => s

def serve (t : Tables) : Action → Except Fault Tables
  | .prepare p => prepare L p t
  | .setControl attempt_id control => setControl L attempt_id control t
  | .initializeControlOnce attempt_id prepared_id fence authorization_ref before_write =>
    Prod.fst <$> initializeControlOnce L attempt_id prepared_id fence authorization_ref before_write t
  | .cancel attempt_id cancel_key timeout_seconds expected_binding =>
    cancel L attempt_id cancel_key timeout_seconds expected_binding t
  | .receiveResult attempt_id fence event_id result =>
    Prod.fst <$> receiveResult L attempt_id fence event_id result t
  | .recordUsage attempt_id fence event_id usage => recordUsage L attempt_id fence event_id usage t
  | .settleUsage attempt_id through_sequence => settleUsage attempt_id through_sequence t
  | _ => .ok t

def State.step (s : State) : Action → State
  | .start prepared_id activation now => s.start L prepared_id activation now
  | .advanceStart index w => s.advanceStart index w
  | .advanceSupervisor index w => s.advanceSupervisor index w
  | .crashStart index =>
    { s with starts := s.starts.modify index fun (starting, _) => (starting, .ended) }
  | .crashSupervisor index =>
    { s with supervisors := s.supervisors.modify index fun (start_key, _) => (start_key, .ended) }
  | command => { s with tables := commit s.tables (serve L s.tables command) }

def system : System State Action where
  initial := (· = .empty)
  step := State.step L

-- What happens

/-- What the steps did, with the rows as they found them. -/
inductive Event
  /-- The first transaction of a start accepted its activation. -/
  | accepted (start_key : String) (row : Option Row) (control : Option Control)
      (activation : Activation) (now : Rat)
  /-- The second transaction of a start allowed the spawn. -/
  | activated (start_key : String) (row : Option Row) (control : Option Control)
      (activation : Activation) (now : Rat)
  | spawned (start_key : String)
  /-- The supervisor's transaction allowed the tool. -/
  | authorised (start_key : String) (row : Option Row) (control : Option Control) (now : Rat)
  | launched (start_key : String)
  | cancelled (start_key : String) (row : Row)
  | received (attempt_id event_id : String) (row : Option (String × Row)) (control : Option Control)
      (fence : Int) (accepted : Bool)
  /-- A usage event was received for the first time. -/
  | recorded (attempt_id event_id : String) (sequence : Nat)
  | settled (attempt_id : String)

def Tables.found (t : Tables) (start_key : String) : Option Row × Option Control :=
  let row := t.executions.get? start_key
  (row, row.bind fun row => t.controls.get? row.attempt_id)

def emit (s : State) : Action → Option Event
  | .start prepared_id activation now =>
    match Execution.start L prepared_id activation now s.tables with
    | .ok (_, some starting) =>
      let (row, control) := s.tables.found prepared_id
      some (.accepted prepared_id row control starting.activation now)
    | _ => none
  | .advanceStart index w =>
    match s.starts[index]? with
    | some (starting, .accepted) =>
      match allowed starting w.now s.tables with
      | .ok true =>
        let (row, control) := s.tables.found starting.prepared_id
        some (.activated starting.prepared_id row control starting.activation w.now)
      | _ => none
    | some (starting, .activated) =>
      if w.succeeds then some (.spawned starting.prepared_id) else none
    | _ => none
  | .advanceSupervisor index w =>
    match s.supervisors[index]? with
    | some (start_key, .grouped row _) =>
      match mayLaunch start_key row w.now s.tables with
      | .ok true =>
        let (row, control) := s.tables.found start_key
        some (.authorised start_key row control w.now)
      | _ => none
    | some (start_key, .authorised ..) => if w.succeeds then some (.launched start_key) else none
    | _ => none
  | .cancel attempt_id cancel_key timeout_seconds expected_binding =>
    match cancel L attempt_id cancel_key timeout_seconds expected_binding s.tables with
    | .ok _ => (s.tables.attempt? attempt_id).map fun (start_key, row) => .cancelled start_key row
    | .error _ => none
  | .receiveResult attempt_id fence event_id result =>
    match s.tables.results.get? (attempt_id, event_id),
        receiveResult L attempt_id fence event_id result s.tables with
    | none, .ok (_, decision) => some (.received attempt_id event_id (s.tables.attempt? attempt_id)
        (s.tables.controls.get? attempt_id) fence decision.accepted)
    | _, _ => none
  | .recordUsage attempt_id fence event_id usage =>
    match s.tables.usage_events.get? (attempt_id, event_id),
        recordUsage L attempt_id fence event_id usage s.tables with
    | none, .ok t => (t.usage_events.get? (attempt_id, event_id)).map fun event =>
        .recorded attempt_id event_id event.sequence
    | _, _ => none
  | .settleUsage attempt_id through_sequence =>
    match settleUsage attempt_id through_sequence s.tables with
    | .ok _ => some (.settled attempt_id)
    | .error _ => none
  | _ => none

end

end Karajan.Execution
