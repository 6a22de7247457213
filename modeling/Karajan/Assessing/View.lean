import Karajan.Assessing.Boundary

/-!
# The resource view

Owners see their accounts in a view that reads the ledger on its own: it reserves
nothing, expires nothing and decides nothing. Where it shows a pool as observed and
names no blocker, its figures are those an admission is decided by.
-/

namespace Karajan.Assessing

open List Capacity Check Listing

inductive PoolStatus
  | unconfigured
  | observed
  | stale
  | unknown
  deriving DecidableEq

inductive CoverageStatus
  | uncertain
  | explicitCoverage
  | noLocalUsage

/-- What owners see of a pool. Amounts are exact, in millionths. -/
structure PoolView where
  id : String
  kind : PoolKind
  unit : QuotaUnit
  window_kind : WindowKind
  window_id : Option String
  reported_remaining : Option Int
  reported_limit : Option Nat
  (local_uncovered future_reserved safety_margin lead_reserve : Nat)
  (available_for_worker available_for_lead : Option Int)
  source : Option Source
  (observed_at received_at reset_at : Option Rat)
  status : PoolStatus
  coverage_status : CoverageStatus
  covered_usage_count : Nat

inductive Blocker
  | accountCooldown (until_time : Rat)
  | exhaustionRequiresNewObservation

structure AccountView where
  id : String
  policy_revision : Option Nat
  policy : Option Policy
  (active_attempts waiting_reconciliation : Nat)
  pools : List PoolView
  blockers : List Blocker

structure ResourceView where
  schema_version : String
  observed_at : Rat
  accounts : List AccountView
  live_qualification : String
  activation_allowed : Bool

def poolStatus (policy : Option Policy) (failures : List FailureRow) (now : Rat) (pool : Pool)
    (observed : Option Observation) : PoolStatus :=
  match policy, observed with
  | some policy, some observed =>
    if observed.stale policy now then .stale
    else if observed.numericRemaining.isNone || (pool.kind = .service &&
        policy.require_official_observation && observed.source ≠ .official) then .unknown
    else if failures.any fun failure => failure.exhausts pool && observed.observed_at ≤ failure.at_time then
      .unknown
    else .observed
  | _, _ => .unconfigured

def poolView (t : Tables) (policy : Option Policy) (held : List Reservation) (failures : List FailureRow)
    (now : Rat) (pool : Pool) : PoolView :=
  let observed := t.observation pool.id
  let row := (t.observations.filter fun row => row.applied && row.observation.pool_id = pool.id).getLast?
  let remaining := observed.bind Observation.numericRemaining
  let status := poolStatus policy failures now pool observed
  let uncovered := localUncovered (t.usageOf pool.account_id) pool observed
  let future := futureUsage (t.usageOf pool.account_id) pool.id held
  let safety := (policy.map fun policy => quantityOf policy.safety_margin pool.id).getD 0
  let reserve := (policy.map fun policy => quantityOf policy.lead_reserve pool.id).getD 0
  let available : Option Int :=
    if status = .observed then remaining.map (· - uncovered - future - safety) else none
  let coverage := (observed.map Observation.covered_usage_ids).getD []
  { id := pool.id
    kind := pool.kind
    unit := pool.unit
    window_kind := pool.window_kind
    window_id := observed.map Observation.window_id
    reported_remaining := remaining
    reported_limit := (observed.bind Observation.limit).map Quantity.units
    local_uncovered := uncovered
    future_reserved := future
    safety_margin := safety
    lead_reserve := reserve
    available_for_worker := available.map (· - reserve)
    available_for_lead := available
    source := observed.map Observation.source
    observed_at := observed.map Observation.observed_at
    received_at := row.map ObservationRow.received_at
    reset_at := observed.bind Observation.reset_at
    status
    coverage_status :=
      if uncovered ≠ 0 then .uncertain else if coverage ≠ [] then .explicitCoverage else .noLocalUsage
    covered_usage_count := coverage.length }

def accountView (t : Tables) (now : Rat) (identity : String) : AccountView :=
  let policy := t.policy identity
  let held := heldAt t now identity
  let failures := t.failuresOf identity
  let pools := (t.pools.values.filter (·.account_id = identity)).insertionSort (·.id ≤ ·.id)
  let cooling := ((failures.map FailureRow.until_time).filter (now < ·)).max?
  let exhausted := (!pools.any (·.kind = .service) && failures.any (·.failure.reason = .quotaExhausted)) ||
    pools.any (poolExhausted t · failures)
  { id := identity
    policy_revision := policy.map fun _ => t.policyRevision identity
    policy
    active_attempts := held.length
    waiting_reconciliation := (held.filter (·.state = .unknown)).length
    pools := pools.map (poolView t policy held failures now)
    blockers := (cooling.map .accountCooldown).toList ++ reasonIf exhausted .exhaustionRequiresNewObservation }

def resourceView (t : Tables) (now : Rat) : ResourceView where
  schema_version := "karajan.resources.view.v1"
  observed_at := now
  accounts := (knownAccounts t).map (accountView t now)
  live_qualification := "not_run"
  activation_allowed := false

/-- The figure for a request: what is reserved for leads is left to a lead with access. -/
def PoolView.availableFor (view : PoolView) (request : AdmissionRequest) : Option Int :=
  if request.lead then view.available_for_lead else view.available_for_worker

-- The figures

theorem poolStatus_observed (h : poolStatus (some policy) failures now pool observed = .observed) :
    ∃ current amount, observed = some current ∧ current.numericRemaining = some amount ∧
      current.stale policy now = false ∧
      (pool.kind = .service && policy.require_official_observation && current.source ≠ .official) = false ∧
      failures.any (fun failure => failure.exhausts pool && current.observed_at ≤ failure.at_time) = false := by
  cases observed with
  | none => cases h
  | some current =>
    simp only [poolStatus] at h
    split at h
    · cases h
    case isFalse hstale =>
      split at h
      · cases h
      case isFalse hquota =>
        split at h
        · cases h
        case isFalse hfailures =>
          rw [Bool.or_eq_true, not_or, Bool.not_eq_true, Bool.not_eq_true, Option.isNone_eq_false_iff] at hquota
          obtain ⟨amount, hamount⟩ := Option.isSome_iff_exists.mp hquota.1
          exact ⟨current, amount, rfl, hamount, by simpa using hstale, hquota.2, by simpa using hfailures⟩

theorem blockers_clear (h : (accountView t now identity).blockers = []) :
    ∀ failure ∈ t.failuresOf identity, failure.until_time ≤ now := by
  simp only [accountView, append_eq_nil_iff, Option.toList_eq_nil_iff, Option.map_eq_none_iff] at h
  intro failure hfailure
  exact cooldown_passed (by simp [h.1]) _ (mem_map_of_mem hfailure)

theorem mem_poolViews : view ∈ (accountView t now identity).pools ↔
    ∃ pool ∈ t.pools.values, pool.account_id = identity ∧
      view = poolView t (t.policy identity) (heldAt t now identity) (t.failuresOf identity) now pool := by
  simp [accountView, and_assoc, eq_comm]

-- The decision

/-- The request is for the pools of the profile, and was routed on what the view shows, if on anything. -/
structure Current (request : AdmissionRequest) (profile : Profile) (account : AccountView) : Prop where
  demand : ∀ pool_id, pool_id ∈ request.demand.keys ↔ pool_id ∈ profile.pool_ids
  windows : ∀ expected, request.expected_capacity = some expected →
    ∀ pool_id, pool_id ∈ expected.pool_windows.keys ↔ pool_id ∈ profile.pool_ids
  revision : ∀ expected, request.expected_capacity = some expected →
    some expected.policy_revision = account.policy_revision
  window : ∀ expected, request.expected_capacity = some expected → ∀ view ∈ account.pools,
    view.id ∈ profile.pool_ids → expected.pool_windows.get? view.id = view.window_id

/-- The view leaves it to the quantities whether the request is admitted. -/
structure Unblocked (account : AccountView) (policy : Policy) (profile : Profile) (request : AdmissionRequest) :
    Prop where
  configured : account.policy = some policy
  observed : ∀ view ∈ account.pools, view.id ∈ profile.pool_ids → view.status = .observed
  blockers : account.blockers = []
  slots : (account.active_attempts : Int) <
    policy.max_active_attempts - (if request.lead then 0 else policy.lead_reserved_slots)
  duration : request.duration_seconds ≤ policy.max_attempt_duration_seconds

def Fits (account : AccountView) (profile : Profile) (request : AdmissionRequest) : Prop :=
  ∀ view ∈ account.pools, view.id ∈ profile.pool_ids →
    (view.availableFor request).any ((quantityOf request.demand view.id : Int) ≤ ·) = true

/-- A pool that is shown as observed is judged by its number, and the number is the figure. -/
theorem evaluatePool_view (request : AdmissionRequest)
    (h : (poolView t (some policy) held failures now pool).status = .observed) :
    ∃ quantity, (poolView t (some policy) held failures now pool).availableFor request = some quantity ∧
      (evaluatePool t request policy failures held now pool).available = some (.units quantity) ∧
      ((evaluatePool t request policy failures held now pool).reasons = [] ↔
        (∀ expected, request.expected_capacity = some expected → expected.pool_windows.get? pool.id =
          (poolView t (some policy) held failures now pool).window_id) ∧
        (quantityOf request.demand pool.id : Int) ≤ quantity) := by
  obtain ⟨observed, amount, hobserved, hamount, hstale, hofficial, hfailures⟩ := poolStatus_observed h
  let quantity := t.quantityFor request policy pool observed amount held
  have hjudged : observedPool t request policy failures held now pool observed =
      ⟨reasonIf (quantity < quantityOf request.demand pool.id) (.quotaInsufficient pool.id), some (.units quantity)⟩ := by
    rw [observedPool, hstale, hofficial, hfailures, hamount]
    rfl
  refine ⟨quantity, ?_, by simp [evaluatePool, hobserved, hjudged], ?_⟩
  · have hstatus : poolStatus (some policy) failures now pool (some observed) = .observed := hobserved ▸ h
    simp only [PoolView.availableFor, poolView, hobserved, hstatus, Option.bind_some, hamount, localUncovered,
      quantity, Tables.quantityFor, Tables.quantity]
    split <;> simp
  · simp only [evaluatePool, hobserved, hjudged, windowKept, poolView, append_eq_nil_iff, reasonIf_eq_nil]
    cases request.expected_capacity <;> simp

theorem accountReasons_view (h : Unblocked (accountView t now profile.account_id) policy profile request) :
    accountReasons t request profile policy (t.policyRevision profile.account_id)
        (heldAt t now profile.account_id) now = [] ↔ ∀ expected, request.expected_capacity = some expected →
        some expected.policy_revision = (accountView t now profile.account_id).policy_revision := by
  have hcooled : (t.failuresOf profile.account_id).any (now < ·.until_time) = false := by
    simpa using blockers_clear h.blockers
  have hpolicy : t.policy profile.account_id = some policy := h.configured
  have hslots := h.slots
  simp only [accountView] at hslots
  simp only [accountReasons, append_eq_nil_iff, reasonIf_eq_nil, decide_eq_false_iff_not, Int.not_le, not_lt,
    hslots, h.duration, hcooled, and_true]
  cases request.expected_capacity <;> simp [accountView, hpolicy]

theorem evaluate_known (request : AdmissionRequest) (policy : Policy) (revision : Nat) (held : List Reservation)
    (now : Rat) (hknown : each t.pool (profile.pool_ids.insertionSort (· ≤ ·)) = .ok pools) :
    ∃ evaluation, evaluate t request profile policy revision held now = .ok evaluation ∧
      (evaluation.reasons = [] ↔ Clear t request profile policy revision held now pools) ∧
      (sameKeys request.demand.keys profile.pool_ids = true → (request.expected_capacity.any fun expected =>
          !sameKeys expected.pool_windows.keys profile.pool_ids) = false →
        evaluation.available = pools.filterMap fun pool =>
          (evaluatePool t request policy (t.failuresOf profile.account_id) held now pool).available.map (pool.id, ·)) := by
  have htotal : ∃ evaluation, evaluate t request profile policy revision held now = .ok evaluation := by
    rw [evaluate, hknown]
    split
    · exact ⟨_, rfl⟩
    · split
      · exact ⟨_, rfl⟩
      · exact ⟨_, rfl⟩
  obtain ⟨evaluation, hevaluation⟩ := htotal
  refine ⟨evaluation, hevaluation, ⟨fun hnone => ?_, fun hclear => ?_⟩, fun hdemand hwindows => ?_⟩
  · obtain ⟨pools', hclear, -⟩ := evaluate_clear hevaluation hnone
    cases hknown.symm.trans hclear.known
    exact hclear
  · obtain ⟨other, hother, hnone⟩ := hclear.evaluate
    cases hevaluation.symm.trans hother
    exact hnone
  · rw [evaluate, hdemand, hwindows, hknown] at hevaluation
    cases hevaluation
    simp [filterMap_map]

/-- Nothing is held any more, and the pool was observed. -/
def Sample.account : AccountView := accountView sampleState.tables 90 "a"

theorem Sample.reach : (system sampleLibrary).Reach System.free sampleState := ⟨_, rfl, .of_free_run⟩

theorem Sample.viewed : Sample.account ∈ (resourceView sampleState.tables 90).accounts := by
  have hknown : "a" ∈ knownAccounts sampleState.tables := by decide +kernel
  exact mem_map_of_mem hknown

open Sample in
theorem Sample.unblocked (request : AdmissionRequest) (hlead : request.lead = false)
    (hduration : request.duration_seconds ≤ 60) :
    ∃ policy, Unblocked account policy sampleProfile request := by
  have hpolicy : account.policy.map (fun policy => (policy.max_active_attempts, policy.lead_reserved_slots,
      policy.max_attempt_duration_seconds)) = some (2, 1, 60) := by decide +kernel
  obtain ⟨policy, hpolicy, hbounds⟩ := Option.map_eq_some_iff.mp hpolicy
  simp only [Prod.mk.injEq] at hbounds
  obtain ⟨hmax, hreserved, hlimit⟩ := hbounds
  have hblockers : account.blockers.isEmpty = true := by decide +kernel
  have hattempts : account.active_attempts = 0 := by decide +kernel
  exact ⟨policy, hpolicy, by decide +kernel, List.isEmpty_iff.mp hblockers,
    by simp [hattempts, hmax, hreserved, hlead], hlimit ▸ hduration⟩

end Karajan.Assessing
