import Karajan.Capacity.Evaluation
import Karajan.Lib.Runs

/-!
# The capacity store

Each command is one transaction of the store: it either commits what it did with
its receipt, under the key it was sent with, or leaves everything as it was.
Reservations whose time has passed are expired by the commands that come by; no
command of its own does it.
-/

namespace Karajan.Capacity

open Check

def same [DecidableEq ν] (d e : Dict String ν) : Bool :=
  d.entries.all (fun x => e.get? x.1 = some x.2) && e.entries.all fun x => d.get? x.1 = some x.2

-- Lifecycle

def save (item : Reservation) (event : Event) (t : Tables) : Tables :=
  { t with
    reservations := t.reservations.put item.id item
    lifecycle := t.lifecycle ++ [⟨item.id, event⟩] }

def Reservation.expire (item : Reservation) : Reservation := { item with state := .expired }

/-- Expire the reservations of an account that lapsed; the others in use are then held. -/
def expire (account_id : String) (now : Rat) (t : Tables) : Tables :=
  ((t.reservationsOf account_id).filter (·.lapsed now)).foldl
    (fun t item => save item.expire (.unsentReservationExpired now) t) t

def Tables.reservation (t : Tables) (admission_id : String) : Except CapacityError Reservation :=
  need (t.reservations.get? admission_id) .admissionUnknown

abbrev Clock := List (Option Rat)

def readClock : Clock → Except CapacityError (Rat × Clock)
  | some now :: rest => .ok (now, rest)
  | none :: _ => .error .clockUnavailable
  | [] => .error .clockUnavailable

-- Pools, profiles and policies

def registerPool (pool : Pool) (t : Tables) : Except CapacityError Tables :=
  match t.pools.get? pool.id with
  | some current => do
    ensure (current = pool) .poolIdentityConflict
    return t
  | none => .ok { t with pools := t.pools.put pool.id pool }

def registerProfile (profile : Profile) (t : Tables) : Except CapacityError Tables := do
  let pools ← each t.pool profile.pool_ids
  ensure (pools.all (·.account_id = profile.account_id) && pools.any (·.kind = .service))
    .profilePoolMismatch
  match t.profiles.get? (profile.id, profile.revision) with
  | some current => do
    ensure (current = profile) .profileIdentityConflict
    return t
  | none => return { t with profiles := t.profiles.put (profile.id, profile.revision) profile }

/-- No pool is protected with more than its last observation allows. -/
def checkProtection (t : Tables) (policy : Policy) (pool_id : String) : Except CapacityError Unit := do
  let pool ← t.pool pool_id
  ensure (pool.account_id = policy.account_id) .policyInvalid
  match (t.observation pool_id).bind Observation.limit with
  | none => return
  | some limit =>
    ensure (quantityOf policy.lead_reserve pool_id ≤ limit.units) .protectionExceedsPoolLimit

def appendPolicy (policy : Policy) (expected_revision : Nat) (t : Tables) : Except CapacityError Tables := do
  ensure (t.policyRevision policy.account_id = expected_revision) .policyStale
  ensure (policy.lead_reserved_slots ≤ policy.max_active_attempts) .policyInvalid
  let _ ← each (checkProtection t policy) (policy.safety_margin.keys ++ policy.lead_reserve.keys)
  return { t with
    policies := t.policies.put policy.account_id
      ((t.policies.get? policy.account_id).getD [] ++ [policy]) }

def activatePolicy (policy : Policy) (expected_revision : Int) (t : Tables) : Except CapacityError Tables := do
  ensure (0 ≤ expected_revision) .inputInvalid
  appendPolicy policy expected_revision.toNat t

def sameUnprotected (policy current : Policy) : Bool :=
  policy.account_id = current.account_id &&
    policy.max_active_attempts = current.max_active_attempts &&
    policy.max_attempt_duration_seconds = current.max_attempt_duration_seconds &&
    policy.observation_max_age_seconds = current.observation_max_age_seconds &&
    policy.require_official_observation = current.require_official_observation &&
    same policy.safety_margin current.safety_margin &&
    policy.conservative_mode = current.conservative_mode

def updateProtection (policy : Policy) (expected_revision : Int) (t : Tables) : Except CapacityError Tables := do
  ensure (1 ≤ expected_revision) .inputInvalid
  let current ← need (t.policy policy.account_id) .policyStale
  ensure (t.policyRevision policy.account_id = expected_revision.toNat) .policyStale
  ensure (sameUnprotected policy current) .protectionUpdateOnly
  appendPolicy policy expected_revision.toNat t

-- Observations

def Observation.quantityValid (observed : Observation) : Bool :=
  match observed.metric, observed.amount, observed.limit with
  | .unknown, amount, _ => amount.isNone
  | _, none, _ => false
  | .remaining, some amount, some limit => amount.units ≤ limit.units
  | _, _, _ => true

def checkCovered (t : Tables) (pool_id usage_id : String) : Except CapacityError Unit := do
  let row ← need (t.usage.get? usage_id) .coverageUsageUnknown
  ensure (row.receipt.amounts.get? pool_id).isSome .coverageUsageUnknown

def checkCoverage (t : Tables) (value : Observation) : Except CapacityError Unit := do
  if value.covered_usage_ids = [] then return
  ensure (value.coverage_ref.isSome && value.covered_usage_ids.Nodup) .coverageEvidenceRequired
  let _ ← each (checkCovered t value.pool_id) value.covered_usage_ids
  return

/-- The other observation gives the window a reset time that this one does not. -/
def Observation.windowConflict (value old : Observation) : Bool :=
  old.window_id = value.window_id && old.reset_at.isSome && old.reset_at ≠ value.reset_at

/-- An observation is applied when it is newer than the current one and its window is
the current one's, or follows it after its reset. -/
def Observation.applies (value : Observation) (previous : Option Observation) : Bool :=
  match previous with
  | none => true
  | some previous =>
    previous.observed_at < value.observed_at &&
      (previous.window_id = value.window_id || previous.reset_at.any (· ≤ value.observed_at))

def observe (value : Observation) (clock : Clock) (t : Tables) :
    Except CapacityError (ObservationRow × Tables) := do
  let pool ← t.pool value.pool_id
  let (now, _) ← readClock clock
  ensure (value.observed_at ≤ now && value.reset_at.all (value.observed_at < ·))
    .observationTimeInvalid
  ensure (!(value.source = .manual && value.adjustment_reason.isNone)) .adjustmentReasonRequired
  ensure (!(pool.kind = .platformAllowance && value.source = .official))
    .allowanceRequiresLocalObservation
  ensure value.quantityValid .observationQuantityInvalid
  checkCoverage t value
  ensure (!(pool.window_kind = .fixed &&
    (t.appliedTo value.pool_id).any value.windowConflict)) .windowIdentityConflict
  let row : ObservationRow := {
    observation := value
    received_at := now
    applied := value.applies (t.observation value.pool_id) }
  return (row, { t with observations := t.observations ++ [row] })

-- Admission

inductive Call
  | returns
  | raises

inductive BoundaryCall
  | nothing
  | check (final_check : Call)
  | notCallable
  | raises

def Call.run : Call → Except CapacityError Unit
  | .returns => .ok ()
  | .raises => .error .callback

/-- What a command meets: the clock, the identity that was drawn for it, and the
callbacks that were passed. -/
structure World where
  clock : Clock
  identity : String
  (before_reserve after_capacity_facts : Option Call)
  before_reservation_write : Option BoundaryCall

/-- The capacity decision about a request, with all it rests on. -/
structure Assessment where
  profile : Profile
  policy : Policy
  policy_revision : Nat
  now : Rat
  held : List Reservation
  evaluation : Evaluation

section
variable (request : AdmissionRequest)

def admissionEvaluation (clock : Clock) (t : Tables) : Except CapacityError (Assessment × Clock × Tables) := do
  ensure (!t.reservations.values.any (·.request.attempt_id = request.attempt_id))
    .attemptAlreadyReserved
  let profile ← need (t.profiles.get? (request.profile_id, request.profile_revision))
    .profileUnknown
  let policy ← need (t.policy profile.account_id) .policyRequired
  let policy_revision := t.policyRevision profile.account_id
  let (now, clock) ← readClock clock
  let t := expire profile.account_id now t
  let held := t.held profile.account_id
  let evaluation ← evaluate t request profile policy policy_revision held now
  return ({ profile, policy, policy_revision, now, held, evaluation }, clock, t)

/-- Read it again, at an instant that is not before the highest one so far. -/
def reevaluate (highest : Rat) (clock : Clock) (t : Tables) :
    Except CapacityError (Assessment × Clock × Tables) := do
  let (found, clock, t) ← admissionEvaluation request clock t
  ensure (highest ≤ found.now) .clockRegressed
  return (found, clock, t)

def rereadAfterReserve (w : World) (found : Assessment)
    (clock : Clock) (t : Tables) : Except CapacityError (Assessment × Clock × Tables) :=
  match w.before_reserve with
  | none => .ok (found, clock, t)
  | some before_reserve =>
    if found.evaluation.reasons ≠ [] then .ok (found, clock, t)
    else do
      before_reserve.run
      reevaluate request found.now clock t

def rereadAfterFacts (w : World) (found : Assessment)
    (clock : Clock) (t : Tables) : Except CapacityError (Assessment × Clock × Tables) :=
  match w.after_capacity_facts with
  | none => .ok (found, clock, t)
  | some after_capacity_facts =>
    if found.evaluation.reasons ≠ [] then .ok (found, clock, t)
    else do
      let (captured_at, clock) ← readClock clock
      ensure (found.now ≤ captured_at) .clockRegressed
      after_capacity_facts.run
      reevaluate request captured_at clock t

/-- One more reading of the clock, and whether the decision still stands there. -/
def TemporalFence.tick (fence : TemporalFence) (clock : Clock) : Except CapacityError (Rat × Bool × Clock) := do
  let (now, clock) ← readClock clock
  ensure (fence.floor ≤ now) .clockRegressed
  return (now, fence.current now, clock)

def finalCheck (before_reservation_write : Option BoundaryCall) : Except CapacityError (Option Call) :=
  match before_reservation_write with
  | none => .ok none
  | some .nothing => .ok none
  | some (.check final_check) => .ok (some final_check)
  | some .notCallable => .error .finalCallbackInvalid
  | some .raises => .error .callback

def runFinalCheck : Option Call → Except CapacityError Unit
  | some final_check => final_check.run
  | none => .ok ()

/-- What became of a decision on its way to the write: it was rejected, or a
reservation may be written under a fence. -/
inductive Stage (α : Type)
  | rejected (reasons : List Reason)
  | standing (next : α)

def fenceDecision (found : Assessment) (clock : Clock) : Except CapacityError (Stage TemporalFence × Clock) := do
  if found.evaluation.reasons ≠ [] then return (.rejected found.evaluation.reasons, clock)
  let observations := found.evaluation.observations
  let fence ← temporalFence found.policy observations found.now
  let (final_now, current, clock) ← fence.tick clock
  if current then return (.standing (fence.through final_now), clock)
  match finalTemporalReasons request found.policy found.held observations final_now found.now with
  | [] => return (.standing fence, clock)
  | reasons => return (.rejected reasons, clock)

def newReservation (found : Assessment) (identity : String) (created_at : Rat) : Reservation where
  id := identity
  request
  state := .reserved
  account_id := found.profile.account_id
  created_at
  expires_at := created_at + request.duration_seconds
  policy_revision := found.policy_revision
  observations := found.evaluation.observations
  activation := none
  cancellation := none
  reconciliation := none

/-- Prepare the row, run the last callbacks and look at the clock a last time. -/
def prepareReservation (w : World) (found : Assessment)
    (fence : TemporalFence) (clock : Clock) : Except CapacityError (Stage Reservation × Clock) := do
  let temporal := finalTemporalReasons request found.policy found.held found.evaluation.observations
  let final_check ← finalCheck w.before_reservation_write
  let (created_at, current, clock) ← fence.tick clock
  let reasons := if current then [] else temporal created_at fence.floor
  let fence := if current then fence.through created_at else fence
  let reservation :=
    if current then some (newReservation request found w.identity created_at) else none
  if reasons ≠ [] then return (.rejected reasons, clock)
  runFinalCheck final_check
  let (final_now, current, clock) ← fence.tick clock
  let expired := !reservation.any (final_now < ·.expires_at)
  let reasons :=
    if !current then temporal final_now fence.floor
    else if expired then [.reservationExpired]
    else []
  if reasons ≠ [] then return (.rejected reasons, clock)
  let reservation ← need reservation .temporalFactsInvalid
  return (.standing reservation, clock)

structure Decision where
  reason_codes : List Reason
  policy_revision : Nat
  request : AdmissionRequest
  observations : List (String × Option Observation)
  available_before : List (String × Available)
  admission_id : Option String

def decisionOf (found : Assessment) (reasons : List Reason) (admission_id : Option String) : Decision where
  reason_codes := reasons
  policy_revision := found.policy_revision
  request
  observations := found.evaluation.observations
  available_before := found.evaluation.available
  admission_id

def insertReservation (item : Reservation) (t : Tables) : Except CapacityError Tables := do
  ensure ((t.reservations.get? item.id).isNone &&
    !t.reservations.values.any (·.request.attempt_id = item.request.attempt_id)) .integrity
  return { t with reservations := t.reservations.put item.id item }

def assess (w : World) (t : Tables) : Except CapacityError (Assessment × Clock × Tables) := do
  let (found, clock, t) ← admissionEvaluation request w.clock t
  let (found, clock, t) ← rereadAfterReserve request w found clock t
  rereadAfterFacts request w found clock t

def concludeAdmission (w : World) (found : Assessment)
    (clock : Clock) : Except CapacityError (Stage Reservation × Clock) := do
  match ← fenceDecision request found clock with
  | (.rejected reasons, clock) => return (.rejected reasons, clock)
  | (.standing fence, clock) => prepareReservation request w found fence clock

/-- The store's decision about a request (its method `admit`), with what is left of the clock. -/
def admitAttempt (w : World) (t : Tables) : Except CapacityError (Decision × Clock × Tables) := do
  let (found, clock, t) ← assess request w t
  match ← concludeAdmission request w found clock with
  | (.rejected reasons, clock) => return (decisionOf request found reasons none, clock, t)
  | (.standing item, clock) =>
    let t ← insertReservation item t
    return (decisionOf request found [] (some item.id), clock, t)

end

-- Activation

structure Activation where
  reason_codes : List Reason
  policy_revision : Option Nat
  expires_at : Option Rat
  observations : List (String × Option Observation)
  available_before : List (String × Available)

def Reservation.activated (item : Reservation) (now : Rat) (policy_revision : Nat) : Reservation :=
  { item with state := .active, activation := some (now, policy_revision) }

/-- Persist the intent to take effect, where capacity still allows it. -/
def activate (admission_id : String) (clock : Clock) (t : Tables) :
    Except CapacityError (Activation × Tables) := do
  let account_id := (← t.reservation admission_id).account_id
  let (now, _) ← readClock clock
  let t := expire account_id now t
  let held := t.held account_id
  let item ← t.reservation admission_id
  if item.state = .expired then return (⟨[.reservationExpired], none, none, [], []⟩, t)
  ensure (item.state = .reserved) .activationAlreadyRecorded
  let profile ← need (t.profiles.get? (item.request.profile_id, item.request.profile_revision))
    .typeError
  let policy ← need (t.policy item.account_id) .typeError
  let policy_revision := t.policyRevision item.account_id
  let others := held.filter (·.id ≠ admission_id)
  let evaluation ← evaluate t item.request profile policy policy_revision others now
  let result : Activation := {
    reason_codes := evaluation.reasons
    policy_revision := some policy_revision
    expires_at := some item.expires_at
    observations := evaluation.observations
    available_before := evaluation.available }
  if evaluation.reasons ≠ [] then return (result, t)
  return (result, save (item.activated now policy_revision) (.activationIntent now) t)

-- Release and reconciliation

def Reservation.cancelled (item : Reservation) (evidence : Cancellation) : Reservation :=
  { item with state := .released, cancellation := some evidence }

/-- Release a reservation that is still unactivated when the command runs. -/
def cancelUnactivated (evidence : Cancellation) (clock : Clock) (t : Tables) :
    Except CapacityError (ReservationState × Tables) := do
  let item ← t.reservation evidence.admission_id
  ensure (!(item.state = .active || item.state = .unknown)) .cannotReleaseActivatedAdmission
  ensure (item.state = .reserved || item.state = .expired) .admissionAlreadyReconciled
  let (now, _) ← readClock clock
  let t := expire item.account_id now t
  let item ← t.reservation evidence.admission_id
  if item.state = .reserved then
    return (.released, save (item.cancelled evidence) (.cancelledUnactivated now evidence) t)
  return (item.state, t)

def Tables.used (t : Tables) (admission_id : String) : Bool :=
  t.usage.values.any (·.receipt.admission_id = admission_id)

def reconciledState (t : Tables) (item : Reservation) (evidence : Reconciliation) :
    Except CapacityError ReservationState := do
  let ended := evidence.local_ended && evidence.remote_ended
  if evidence.not_sent then
    ensure (!t.used evidence.admission_id) .unsentConflictsWithUsage
    ensure ended .reconciliationIncomplete
    return .released
  ensure (item.state ≠ .reserved) .activationRequired
  ensure (!evidence.usage_complete || t.used evidence.admission_id) .finalUsageRequired
  return if ended && evidence.usage_complete then .ended else .unknown

def Reservation.reconciled (item : Reservation) (state : ReservationState)
    (evidence : Reconciliation) : Reservation :=
  { item with state, reconciliation := some evidence }

def reconcile (evidence : Reconciliation) (clock : Clock) (t : Tables) :
    Except CapacityError (ReservationState × Tables) := do
  let item ← t.reservation evidence.admission_id
  ensure item.state.holds .admissionAlreadyReconciled
  let state ← reconciledState t item evidence
  let (now, _) ← readClock clock
  return (state, save (item.reconciled state evidence) (.reconciled now evidence) t)

-- Usage and failures

/-- The reset of a window, as the last applied observation of it has it. -/
def windowReset (t : Tables) (pool_id : String) : Option String → Except CapacityError (Option Rat)
  | none => .ok none
  | some window_id => do
    let found ← need ((t.appliedTo pool_id).filter (·.window_id = window_id)).getLast?
      .windowUnknown
    return found.reset_at

def sameReceipt (value saved : UsageReceipt) : Bool :=
  value.id = saved.id && value.admission_id = saved.admission_id &&
    same value.amounts saved.amounts && same value.window_ids saved.window_ids &&
    value.evidence_ref = saved.evidence_ref && value.attribution_ref = saved.attribution_ref

def checkReceipt (value : UsageReceipt) (item : Reservation) : Except CapacityError Unit := do
  ensure (item.state = .active || item.state = .unknown || item.state = .ended) .activationRequired
  let pools := item.request.demand.keys
  ensure (sameKeys value.amounts.keys pools && sameKeys value.window_ids.keys pools)
    .poolVectorMismatch
  ensure (!(value.window_ids.values.any Option.isSome && value.attribution_ref.isNone))
    .windowAttributionRequired

def newUsage (t : Tables) (value : UsageReceipt) (item : Reservation)
    (resets : List (String × Option Rat)) (recorded_at : Rat) : UsageRow :=
  let all_usage := t.usageOf item.account_id
  let exceeded := item.request.demand.keys.filter fun pool_id =>
    quantityOf item.request.demand pool_id <
      quantityOf value.amounts pool_id + recordedUsage all_usage pool_id item
  { account_id := item.account_id
    receipt := value
    recorded_at
    window_resets := Dict.ofList resets
    over_estimate_pools := exceeded.insertionSort (· ≤ ·) }

def recordUsage (value : UsageReceipt) (clock : Clock) (t : Tables) : Except CapacityError (UsageRow × Tables) :=
  match t.usage.get? value.id with
  | some saved => do
    ensure (sameReceipt value saved.receipt) .usageIdentityConflict
    return (saved, t)
  | none => do
    let item ← t.reservation value.admission_id
    checkReceipt value item
    let resets ← each (fun entry => (entry.1, ·) <$> windowReset t entry.1 entry.2)
      value.window_ids.entries
    let (recorded_at, _) ← readClock clock
    let row := newUsage t value item resets recorded_at
    return (row, { t with usage := t.usage.put value.id row })

def recordFailure (value : Failure) (clock : Clock) (t : Tables) :
    Except CapacityError (FailureRow × Tables) := do
  let policy ← need (t.policy value.account_id) .policyRequired
  let cooldown := (policy.conservative_mode.bind ConservativeMode.cooldown_seconds).getD 0
  let (now, _) ← readClock clock
  let row : FailureRow := {
    failure := value
    at_time := now
    until_time := now + (max cooldown value.retry_after_seconds : Nat) }
  return (row, { t with failures := t.failures ++ [row] })

-- Commands

inductive Command
  | registerPool (pool : Pool)
  | registerProfile (profile : Profile)
  | observe (observation : Observation)
  | activatePolicy (policy : Policy) (expected_revision : Int)
  | updateProtection (policy : Policy) (expected_revision : Int)
  | admitAttempt (request : AdmissionRequest)
  | activate (admission_id : String)
  | cancelUnactivated (evidence : Cancellation)
  | reconcile (evidence : Reconciliation)
  | recordUsage (receipt : UsageReceipt)
  | recordFailure (failure : Failure)

inductive Result
  | done
  | observed (row : ObservationRow)
  | decided (decision : Decision)
  | activation (activation : Activation)
  | state (state : ReservationState)
  | used (row : UsageRow)
  | failed (row : FailureRow)

/-- What a command does in its transaction, where it was not answered before. -/
def apply (w : World) (t : Tables) : Command → Except CapacityError (Result × Tables)
  | .registerPool pool => (.done, ·) <$> registerPool pool t
  | .registerProfile profile => (.done, ·) <$> registerProfile profile t
  | .observe value => Prod.map .observed id <$> observe value w.clock t
  | .activatePolicy policy expected_revision =>
    (.done, ·) <$> activatePolicy policy expected_revision t
  | .updateProtection policy expected_revision =>
    (.done, ·) <$> updateProtection policy expected_revision t
  | .admitAttempt request =>
    (fun (decision, _, t) => (.decided decision, t)) <$> admitAttempt request w t
  | .activate admission_id => Prod.map .activation id <$> activate admission_id w.clock t
  | .cancelUnactivated evidence => Prod.map .state id <$> cancelUnactivated evidence w.clock t
  | .reconcile evidence => Prod.map .state id <$> reconcile evidence w.clock t
  | .recordUsage value => Prod.map .used id <$> recordUsage value w.clock t
  | .recordFailure value => Prod.map .failed id <$> recordFailure value w.clock t

/-- A receipt as it is kept: the digest of the command it answered, and the answer. -/
structure CommandRow where
  digest : String
  result : Result

structure State where
  tables : Tables
  commands : Dict String CommandRow

/-- What a command is identified by: the digest of its kind and payload, and whether
its key is a printable text of bounded length. -/
structure Library where
  digest : Command → String
  keyValid : String → Bool

variable (L : Library)

/-- A command sent again under its key is answered from its receipt. -/
def State.command (s : State) (command_key : String) (c : Command) (w : World) :
    Except CapacityError (Result × State) := do
  ensure (L.keyValid command_key) .inputInvalid
  match s.commands.get? command_key with
  | some original =>
    ensure (original.digest = L.digest c) .idempotencyConflict
    return (original.result, s)
  | none =>
    let (result, tables) ← apply w s.tables c
    return (result, { tables, commands := s.commands.put command_key ⟨L.digest c, result⟩ })

structure Action where
  command_key : String
  command : Command
  world : World

def State.step (s : State) (a : Action) : State :=
  match s.command L a.command_key a.command a.world with
  | .ok (_, s) => s
  | .error _ => s

def Tables.empty : Tables := ⟨.empty, .empty, [], .empty, .empty, [], .empty, []⟩

def State.empty : State := ⟨.empty, .empty⟩

def system : System State Action where
  initial s := s = State.empty
  step := State.step L

end Karajan.Capacity
