import Karajan.Lib.Check
import Karajan.Lib.Dict
import Mathlib.Data.List.Sort
import Mathlib.Algebra.Order.Ring.Rat
import Mathlib.Algebra.Order.Ring.Nat

/-!
# Capacity records

Shared quota of an account is reported by observations of its pools, protected
by a policy and claimed by reservations. The records here are payloads whose
fields were validated when they arrived, and the rows that are stored of them.
-/

namespace Karajan.Capacity

/-- A decimal text, with the number of millionths it is read as. -/
structure Quantity where
  text : String
  units : Nat
  deriving DecidableEq

def quantityOf (amounts : Dict String Quantity) (pool_id : String) : Nat :=
  ((amounts.get? pool_id).map Quantity.units).getD 0

-- Pools and profiles

inductive PoolKind
  | service
  | platformAllowance
  deriving DecidableEq

inductive QuotaUnit
  | requests
  | percent
  | tokens
  deriving DecidableEq

inductive WindowKind
  | fixed
  | rolling
  | balance
  | unknown
  deriving DecidableEq

structure Pool where
  (id account_id : String)
  kind : PoolKind
  unit : QuotaUnit
  window_kind : WindowKind
  deriving DecidableEq

/-- A profile draws on at least one pool, on each of them once. -/
structure Profile where
  id : String
  revision : Nat
  account_id : String
  pool_ids : List String
  nonempty : pool_ids ≠ []
  nodup : pool_ids.Nodup
  deriving DecidableEq

-- Observations and policies

inductive Source
  | official
  | fixture
  | manual
  | localLedger
  deriving DecidableEq

inductive Metric
  | remaining
  | used
  | unknown
  deriving DecidableEq

structure Observation where
  (pool_id window_id : String)
  observed_at : Rat
  reset_at : Option Rat
  source : Source
  source_ref : String
  metric : Metric
  (amount limit : Option Quantity)
  covered_usage_ids : List String
  (coverage_ref adjustment_reason : Option String)
  deriving DecidableEq

structure ConservativeMode where
  enabled : Bool
  (max_local_active_attempts max_attempt_duration_seconds observation_max_age_seconds : Option Nat)
  (cooldown_seconds : Option Nat)
  deriving DecidableEq

structure Policy where
  account_id : String
  (max_active_attempts max_attempt_duration_seconds observation_max_age_seconds : Nat)
  require_official_observation : Bool
  (safety_margin lead_reserve : Dict String Quantity)
  lead_reserved_slots : Nat
  conservative_mode : Option ConservativeMode

-- Requests

inductive Role
  | commander
  | worker
  | reviewer
  | check
  deriving DecidableEq

inductive Purpose
  | lead
  | advice
  deriving DecidableEq

/-- What a request was routed on, which must still hold when it is admitted. -/
structure ExpectedCapacity where
  policy_revision : Nat
  pool_windows : Dict String String
  lead_reserve_access : Bool

structure AdmissionRequest where
  (attempt_id run_id profile_id : String)
  profile_revision : Nat
  role : Role
  purpose : Option Purpose
  (authorization_ref rulebook_revision : String)
  duration_seconds : Nat
  demand : Dict String Quantity
  expected_capacity : Option ExpectedCapacity

/-- Only a lead request with access may draw on what is reserved for leads. -/
def AdmissionRequest.lead (request : AdmissionRequest) : Bool :=
  request.role = .commander && request.purpose = some .lead &&
    !request.expected_capacity.any (!·.lead_reserve_access)

structure Cancellation where
  (admission_id evidence_ref : String)

structure Reconciliation where
  admission_id : String
  (local_ended remote_ended usage_complete not_sent : Bool)
  evidence_ref : String

structure UsageReceipt where
  (id admission_id : String)
  amounts : Dict String Quantity
  window_ids : Dict String (Option String)
  evidence_ref : String
  attribution_ref : Option String

inductive FailureReason
  | rateLimitTransient
  | quotaExhausted
  | observationUnavailable
  deriving DecidableEq

structure Failure where
  account_id : String
  reason : FailureReason
  retry_after_seconds : Nat
  evidence_ref : String

-- Rows

inductive ReservationState
  | reserved
  | active
  | unknown
  | ended
  | released
  | expired
  deriving DecidableEq

structure Reservation where
  id : String
  request : AdmissionRequest
  state : ReservationState
  account_id : String
  (created_at expires_at : Rat)
  policy_revision : Nat
  observations : List (String × Option Observation)
  /-- When it was activated, and under which policy. -/
  activation : Option (Rat × Nat)
  cancellation : Option Cancellation
  reconciliation : Option Reconciliation

structure ObservationRow where
  observation : Observation
  received_at : Rat
  applied : Bool

structure UsageRow where
  account_id : String
  receipt : UsageReceipt
  recorded_at : Rat
  /-- The resets of the windows the usage is attributed to, as far as they were known. -/
  window_resets : Dict String (Option Rat)
  over_estimate_pools : List String

structure FailureRow where
  failure : Failure
  (at_time until_time : Rat)

def ReservationState.holds (state : ReservationState) : Bool :=
  state = .reserved || state = .active || state = .unknown

def Reservation.lapsed (item : Reservation) (now : Rat) : Bool := item.state = .reserved && item.expires_at ≤ now

/-- What an observation reports of a pool, where it is a number. -/
def Observation.numericRemaining (observed : Observation) : Option Int :=
  match observed.metric, observed.amount, observed.limit with
  | .remaining, some amount, _ => some amount.units
  | .used, some amount, some limit => some (limit.units - amount.units)
  | _, _, _ => none

-- The capacity decision

open Check

inductive CapacityError
  | clockUnavailable
  | clockRegressed
  | inputInvalid
  | idempotencyConflict
  | poolIdentityConflict
  | poolUnknown
  | profilePoolMismatch
  | profileIdentityConflict
  | profileUnknown
  | observationTimeInvalid
  | adjustmentReasonRequired
  | allowanceRequiresLocalObservation
  | observationQuantityInvalid
  | coverageEvidenceRequired
  | coverageUsageUnknown
  | windowIdentityConflict
  | policyStale
  | policyInvalid
  | policyRequired
  | protectionUpdateOnly
  | protectionExceedsPoolLimit
  | attemptAlreadyReserved
  | temporalFactsInvalid
  | finalCallbackInvalid
  | admissionUnknown
  | activationAlreadyRecorded
  | cannotReleaseActivatedAdmission
  | admissionAlreadyReconciled
  | unsentConflictsWithUsage
  | reconciliationIncomplete
  | activationRequired
  | finalUsageRequired
  | usageIdentityConflict
  | poolVectorMismatch
  | windowAttributionRequired
  | windowUnknown
  /-- The database refuses a row whose key is taken. -/
  | integrity
  /-- A row or a field that the code counts on is not there. -/
  | typeError
  | callback

-- Tables

inductive Event
  | unsentReservationExpired (at_time : Rat)
  | activationIntent (at_time : Rat)
  | cancelledUnactivated (at_time : Rat) (evidence : Cancellation)
  | reconciled (at_time : Rat) (evidence : Reconciliation)

structure LifecycleRow where
  admission_id : String
  event : Event

/-- The tables decisions are made from. The observations, the events and the
failures are in the order of their sequence numbers; the revision of a policy is
its place among those of its account, from 1. -/
structure Tables where
  pools : Dict String Pool
  profiles : Dict (String × Nat) Profile
  observations : List ObservationRow
  policies : Dict String (List Policy)
  reservations : Dict String Reservation
  lifecycle : List LifecycleRow
  usage : Dict String UsageRow
  failures : List FailureRow

section
variable (t : Tables)

def Tables.pool (pool_id : String) : Except CapacityError Pool := need (t.pools.get? pool_id) .poolUnknown

def Tables.appliedTo (pool_id : String) : List Observation :=
  (t.observations.filter fun row => row.applied && row.observation.pool_id = pool_id).map
    ObservationRow.observation

def Tables.observation (pool_id : String) : Option Observation := (t.appliedTo pool_id).getLast?

def Tables.policyRevision (account_id : String) : Nat := ((t.policies.get? account_id).getD []).length

def Tables.policy (account_id : String) : Option Policy := ((t.policies.get? account_id).getD []).getLast?

def Tables.reservationsOf (account_id : String) : List Reservation :=
  t.reservations.values.filter fun item => item.account_id = account_id

def Tables.usageOf (account_id : String) : List UsageRow :=
  t.usage.values.filter fun row => row.account_id = account_id

def Tables.failuresOf (account_id : String) : List FailureRow :=
  t.failures.filter fun row => row.failure.account_id = account_id

def Tables.held (account_id : String) : List Reservation :=
  (t.reservationsOf account_id).filter fun item => item.state.holds

-- Usage of a pool

/-- The row counts against what the observation reports: it draws on the pool, is not
covered by the observation, and is not of a window that was reset before it. -/
def UsageRow.uncovered (row : UsageRow) (pool : Pool) (observed : Observation) : Bool :=
  (row.receipt.amounts.get? pool.id).isSome &&
    !observed.covered_usage_ids.contains row.receipt.id &&
    !(pool.window_kind = .fixed &&
      match (row.receipt.window_ids.get? pool.id).join, (row.window_resets.get? pool.id).join with
      | some window, some reset => window ≠ observed.window_id && reset ≤ observed.observed_at
      | _, _ => false)

def uncoveredUsage (all_usage : List UsageRow) (pool : Pool) (observed : Observation) : Nat :=
  ((all_usage.filter fun row => row.uncovered pool observed).map fun row =>
    quantityOf row.receipt.amounts pool.id).sum

/-- What a reservation has used of a pool, as far as it was recorded. -/
def recordedUsage (all_usage : List UsageRow) (pool_id : String) (item : Reservation) : Nat :=
  ((all_usage.filter fun row => row.receipt.admission_id = item.id).map fun row =>
    quantityOf row.receipt.amounts pool_id).sum

def futureUsage (all_usage : List UsageRow) (pool_id : String) (held : List Reservation) : Nat :=
  (held.map fun item =>
    quantityOf item.request.demand pool_id - recordedUsage all_usage pool_id item).sum

/-- What the pool has left when all of that is set aside, with the safety margin. -/
def Tables.quantity (policy : Policy) (pool : Pool) (observed : Observation)
    (amount : Int) (held : List Reservation) : Int :=
  let all_usage := t.usageOf pool.account_id
  amount - uncoveredUsage all_usage pool observed - futureUsage all_usage pool.id held -
    quantityOf policy.safety_margin pool.id

end

-- Reasons

inductive ConservativeReason
  | officialQuotaRequired
  | quotaUnknown
  | conservativeModeIncomplete
  | concurrencyExhausted
  | durationExceeded
  | observationStale
  deriving DecidableEq

inductive Reason
  | poolVectorMismatch
  | windowVectorMismatch
  | policyRevisionChanged
  | accountConcurrencyExhausted
  | attemptDurationUnbounded
  | accountCooldown
  | windowChanged (pool_id : String)
  | observationStale (pool_id : String)
  | officialObservationRequired (pool_id : String)
  | exhaustionRequiresNewObservation (pool_id : String)
  | conservative (reason : ConservativeReason) (pool_id : String)
  | quotaInsufficient (pool_id : String)
  | clockRegressed
  | reservationExpired
  deriving DecidableEq

def reasonIf (b : Bool) (reason : α) : List α := if b then [reason] else []

@[simp] theorem reasonIf_eq_nil {reason : α} : reasonIf b reason = [] ↔ b = false := by
  cases b <;> simp [reasonIf]

/-- The observation is in the future, too old, or of a window that was reset. -/
def Observation.stale (observed : Observation) (policy : Policy) (now : Rat) : Bool :=
  now < observed.observed_at ||
    (policy.observation_max_age_seconds : Rat) < now - observed.observed_at ||
    observed.reset_at.any (· ≤ now)

structure CompleteMode where
  (max_local_active_attempts max_attempt_duration_seconds observation_max_age_seconds : Nat)

def ConservativeMode.complete? (mode : ConservativeMode) : Option CompleteMode := do
  let max_local_active_attempts ← mode.max_local_active_attempts
  let max_attempt_duration_seconds ← mode.max_attempt_duration_seconds
  let observation_max_age_seconds ← mode.observation_max_age_seconds
  let _ ← mode.cooldown_seconds
  return { max_local_active_attempts, max_attempt_duration_seconds, observation_max_age_seconds }

/-- What stands against a request where the quota is not known as a number. -/
def conservative (request : AdmissionRequest) (policy : Policy) (observed : Observation)
    (held : List Reservation) (now : Rat) : List ConservativeReason :=
  if policy.require_official_observation then [.officialQuotaRequired]
  else
    match policy.conservative_mode.filter ConservativeMode.enabled with
    | none => [.quotaUnknown]
    | some mode =>
      match mode.complete? with
      | none => [.conservativeModeIncomplete]
      | some mode =>
        let slots : Int := mode.max_local_active_attempts -
          (if request.lead then 0 else policy.lead_reserved_slots)
        reasonIf (slots ≤ held.length) .concurrencyExhausted ++
        reasonIf (mode.max_attempt_duration_seconds < request.duration_seconds) .durationExceeded ++
        reasonIf ((mode.observation_max_age_seconds : Rat) < now - observed.observed_at)
          .observationStale

def FailureRow.exhausts (failure : FailureRow) (pool : Pool) : Bool :=
  pool.kind = .service && failure.failure.reason = .quotaExhausted

/-- The last number that was reported leaves nothing, and no later window was seen. -/
def exhausted (t : Tables) (pool : Pool) (observed : Observation) (failures : List FailureRow) : Bool :=
  let numeric := (t.appliedTo pool.id).filter fun old => old.numericRemaining.isSome
  match numeric.getLast? with
  | none => failures.any (·.exhausts pool)
  | some latest =>
    let nothing := latest.numericRemaining.any (· ≤ 0)
    failures.any (fun failure => failure.exhausts pool &&
      (latest.observed_at ≤ failure.at_time || nothing)) ||
    (nothing && !(pool.window_kind = .fixed && observed.window_id ≠ latest.window_id &&
      latest.reset_at.any (· ≤ observed.observed_at)))

section
variable (t : Tables) (request : AdmissionRequest)

def accountReasons (profile : Profile) (policy : Policy)
    (policy_revision : Nat) (held : List Reservation) (now : Rat) : List Reason :=
  let slots : Int := policy.max_active_attempts - (if request.lead then 0 else policy.lead_reserved_slots)
  reasonIf (request.expected_capacity.any (·.policy_revision ≠ policy_revision))
    .policyRevisionChanged ++
  reasonIf (slots ≤ held.length) .accountConcurrencyExhausted ++
  reasonIf (policy.max_attempt_duration_seconds < request.duration_seconds)
    .attemptDurationUnbounded ++
  reasonIf ((t.failuresOf profile.account_id).any (now < ·.until_time)) .accountCooldown

/-- The observation of the pool is of the window the request was routed on. -/
def windowKept (request : AdmissionRequest) (observed : Option Observation) (pool_id : String) : Bool :=
  match request.expected_capacity with
  | none => true
  | some expected => observed.any fun observed =>
      expected.pool_windows.get? pool_id = some observed.window_id

def Tables.quantityFor (policy : Policy) (pool : Pool)
    (observed : Observation) (amount : Int) (held : List Reservation) : Int :=
  t.quantity policy pool observed amount held -
    (if request.lead then 0 else quantityOf policy.lead_reserve pool.id)

/-- What is left of a pool for the request, where the evaluation came to ask. -/
inductive Available
  | unknown
  | units (left : Int)
  deriving DecidableEq

structure PoolEvaluation where
  reasons : List Reason
  available : Option Available

def observedPool (policy : Policy)
    (failures : List FailureRow) (held : List Reservation) (now : Rat) (pool : Pool)
    (observed : Observation) : PoolEvaluation :=
  if observed.stale policy now then ⟨[.observationStale pool.id], none⟩
  else if pool.kind = .service && policy.require_official_observation &&
      observed.source ≠ .official then
    ⟨[.officialObservationRequired pool.id], none⟩
  else if (observed.numericRemaining.isNone && exhausted t pool observed failures) ||
      failures.any (fun failure => failure.exhausts pool &&
        observed.observed_at ≤ failure.at_time) then
    ⟨[.exhaustionRequiresNewObservation pool.id], none⟩
  else
    match observed.numericRemaining with
    | none =>
      ⟨(conservative request policy observed held now).map (.conservative · pool.id), some .unknown⟩
    | some amount =>
      let quantity := t.quantityFor request policy pool observed amount held
      ⟨reasonIf (quantity < quantityOf request.demand pool.id) (.quotaInsufficient pool.id),
        some (.units quantity)⟩

def evaluatePool (policy : Policy)
    (failures : List FailureRow) (held : List Reservation) (now : Rat) (pool : Pool) : PoolEvaluation :=
  let window := reasonIf (!windowKept request (t.observation pool.id) pool.id)
    (.windowChanged pool.id)
  match t.observation pool.id with
  | none => ⟨window ++ [.observationStale pool.id], none⟩
  | some observed =>
    let { reasons, available } := observedPool t request policy failures held now pool observed
    ⟨window ++ reasons, available⟩

structure Evaluation where
  reasons : List Reason
  observations : List (String × Option Observation)
  available : List (String × Available)

def sameKeys (keys ids : List String) : Bool := keys.all (· ∈ ids) && ids.all (· ∈ keys)

def evaluate (profile : Profile) (policy : Policy) (policy_revision : Nat) (held : List Reservation) (now : Rat) :
    Except CapacityError Evaluation :=
  if !sameKeys request.demand.keys profile.pool_ids then .ok ⟨[.poolVectorMismatch], [], []⟩
  else if request.expected_capacity.any fun expected =>
      !sameKeys expected.pool_windows.keys profile.pool_ids then
    .ok ⟨[.windowVectorMismatch], [], []⟩
  else do
    let pools ← each t.pool (profile.pool_ids.insertionSort (· ≤ ·))
    let failures := t.failuresOf profile.account_id
    let evaluated := pools.map fun pool =>
      (pool.id, evaluatePool t request policy failures held now pool)
    return {
      reasons := accountReasons t request profile policy policy_revision held now ++
        evaluated.flatMap (·.2.reasons)
      observations := pools.map fun pool => (pool.id, t.observation pool.id)
      available := evaluated.filterMap fun (pool_id, found) =>
        found.available.map (pool_id, ·) }

end

-- The temporal fence

structure TemporalFence where
  (floor inclusive_until : Rat)
  exclusive_until : Option Rat

def TemporalFence.current (fence : TemporalFence) (now : Rat) : Bool :=
  fence.floor ≤ now && now ≤ fence.inclusive_until && fence.exclusive_until.all (now < ·)

def TemporalFence.through (fence : TemporalFence) (now : Rat) : TemporalFence :=
  { fence with floor := max fence.floor now }

/-- How long an observation may be relied on: by its age, and by that of the
conservative mode where it is not a number. -/
def inclusiveBounds (policy : Policy) (observed : Observation) : Except CapacityError (List Rat) :=
  let current := observed.observed_at + policy.observation_max_age_seconds
  if observed.numericRemaining.isSome then .ok [current]
  else do
    let mode ← need policy.conservative_mode .temporalFactsInvalid
    let age ← need mode.observation_max_age_seconds .temporalFactsInvalid
    return [current, observed.observed_at + age]

def temporalFence (policy : Policy) (observations : List (String × Option Observation))
    (evaluated_at : Rat) : Except CapacityError TemporalFence := do
  let observed ← each (fun entry => need entry.2 .temporalFactsInvalid) observations
  let inclusive ← each (inclusiveBounds policy) observed
  let inclusive_until ← need inclusive.flatten.min? .temporalFactsInvalid
  return {
    floor := evaluated_at
    inclusive_until
    exclusive_until := (observed.filterMap Observation.reset_at).min? }

def finalTemporalReasons (request : AdmissionRequest) (policy : Policy) (held : List Reservation)
    (observations : List (String × Option Observation)) (now evaluated_at : Rat) : List Reason :=
  reasonIf (now < evaluated_at) .clockRegressed ++
  observations.flatMap fun (pool_id, observed) =>
    match observed with
    | none => [.observationStale pool_id]
    | some observed =>
      if observed.stale policy now then [.observationStale pool_id]
      else if observed.numericRemaining.isNone then
        (conservative request policy observed held now).map (.conservative · pool_id)
      else []

end Karajan.Capacity
