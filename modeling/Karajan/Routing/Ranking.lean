import Karajan.Routing.Candidates
import Mathlib.Algebra.Order.Field.Rat
import Mathlib.Data.List.Lex
import Mathlib.Data.Sum.Order

/-!
# Quota checks

What stands against a candidate in the capacity that was observed. An admission
that is held already was given its quota; then only the demand is checked, and
everything that is about the quota at the instant is skipped.
-/

namespace Karajan.Routing

open Capacity (Quantity quantityOf reasonIf)
open Execution (Role)
open Listing

def PolicySnapshot.quotaPool? (policy : PolicySnapshot) (pool_id : String) : Option QuotaPool :=
  policy.resources.quota_pools.find? (·.id = pool_id)

def CapacitySnapshot.account? (capacity : CapacitySnapshot) (account_id : String) : Option AccountState :=
  capacity.accounts.find? (·.id = account_id)

def CapacitySnapshot.pool? (capacity : CapacitySnapshot) (pool_id : String) : Option PoolState :=
  capacity.pools.find? (·.id = pool_id)

def CapacitySnapshot.estimate? (capacity : CapacitySnapshot) (key : ProfileRef) : Option Estimate :=
  capacity.estimates.find? (·.profile = key)

section
variable (task : TaskSnapshot)

/-- Only a lead that its rule does not deny it may draw on what is reserved for leads. -/
def leadAccess (rule : Rule) : Bool :=
  task.role = .commander && task.purpose = some .lead && rule.lead_reserve_access ≠ some false

-- The account

def reservedSlots (policy : Capacity.Policy) (lead : Bool) : Nat :=
  if lead then 0 else policy.lead_reserved_slots

def liveAccountReasons (account : AccountState) (as_of : Rat) (lead : Bool) : List Reason :=
  let slots : Int := account.policy.max_active_attempts - reservedSlots account.policy lead
  reasonIf (slots ≤ account.active_attempts) .concurrencyUnavailable ++
  reasonIf (account.cooldown_until.any (as_of < ·)) .accountCooldown ++
  reasonIf account.exhaustion_observation_required .exhaustionRequiresNewObservation

def accountReasons (account : AccountState) (account_id : String) (task : TaskSnapshot) : List Reason :=
  let current := account.policy
  reasonIf (account.policy_revision ≠ account.current_policy_revision ||
    current.account_id ≠ account_id) .capacityPolicyNotCurrent ++
  reasonIf (current.max_active_attempts < current.lead_reserved_slots) .capacityPolicyInvalid ++
  reasonIf (min current.max_attempt_duration_seconds
    task.authorization.max_attempt_duration_seconds < task.duration_seconds) .durationLimitExceeded

-- The demand

def Estimate.demands (estimate : Estimate) : Dict String Demand :=
  .ofList (estimate.demand.map fun d => (d.pool_id, d))

def vectorReasons (pool_ids : List String) (estimate : Estimate) : List Reason :=
  reasonIf (pool_ids.isEmpty || !(pool_ids.all estimate.demands.contains &&
    estimate.demands.keys.all (· ∈ pool_ids))) .demandVectorIncomplete

def poolBound (policy : PolicySnapshot) (pool : PoolState) (account_id : String) : Bool :=
  ((policy.quotaPool? pool.id).any fun catalog => catalog.account_id = some pool.account_id &&
    catalog.kind = pool.kind && catalog.unit = pool.unit) && pool.account_id = account_id

def demandReasons (pool : PoolState) (demand : Demand) : List Reason :=
  reasonIf (demand.unit ≠ pool.unit || demand.window_id ≠ pool.window_id)
    (.demandWindowMismatch pool.id) ++
  reasonIf (demand.amount.units ≤ 0) (.demandEstimateInvalid pool.id)

-- The quota

def Confidence.band : Confidence → Nat
  | .known => 0
  | .calibrated => 1
  | .unknown => 2

def PoolState.unknown (pool : PoolState) (estimate : Estimate) : Bool :=
  pool.reported_remaining.isNone || pool.confidence = .unknown || estimate.confidence = .unknown ||
    pool.window_kind = .unknown

def PoolState.stale (pool : PoolState) (current : Capacity.Policy) (as_of : Rat) : Bool :=
  let age := as_of - pool.observed_at
  age < 0 || (current.observation_max_age_seconds : Rat) < age || pool.reset_at.any (· ≤ as_of)

def roleReserve (current : Capacity.Policy) (lead : Bool) (pool_id : String) : Nat :=
  if lead then 0 else quantityOf current.lead_reserve pool_id

def PoolState.available (pool : PoolState) (current : Capacity.Policy) (lead : Bool) : Option Int :=
  pool.reported_remaining.map fun remaining =>
    (remaining.units : Int) - pool.local_uncovered.units - pool.future_reserved.units -
      quantityOf current.safety_margin pool.id - roleReserve current lead pool.id

/-- A pool of unknown quota may be used in a mode that bounds everything. -/
def unknownReasons (account : AccountState) (task : TaskSnapshot) (pool : PoolState) (as_of : Rat)
    (lead : Bool) : List Reason :=
  let current := account.policy
  let age := as_of - pool.observed_at
  match (current.conservative_mode.filter (·.enabled)).bind (·.complete?) with
  | none => [.unknownQuotaNotAuthorized pool.id]
  | some mode =>
    if current.require_official_observation && pool.kind = .service then
      [.unknownQuotaNotAuthorized pool.id]
    else
      let slots : Int := mode.max_local_active_attempts - reservedSlots current lead
      reasonIf (slots ≤ account.active_attempts ||
        mode.max_attempt_duration_seconds < task.duration_seconds || age < 0 ||
        (mode.observation_max_age_seconds : Rat) < age) (.conservativeLimitExceeded pool.id)

def quotaReasons (account : AccountState) (task : TaskSnapshot) (estimate : Estimate)
    (pool : PoolState) (amount : Nat) (as_of : Rat) (lead : Bool) : List Reason :=
  let current := account.policy
  let kept := quantityOf current.safety_margin pool.id + roleReserve current lead pool.id
  reasonIf (pool.reported_limit.any fun limit =>
    pool.reported_remaining.any (limit.units < ·.units) || limit.units < kept)
    (.poolLimitInconsistent pool.id) ++
  reasonIf ((pool.available current lead).any (· < (amount : Int))) (.quotaInsufficient pool.id) ++
  reasonIf (pool.stale current as_of) (.observationStale pool.id) ++
  reasonIf (current.require_official_observation && pool.kind = .service &&
    pool.source ≠ .official) (.officialObservationRequired pool.id) ++
  if pool.unknown estimate then unknownReasons account task pool as_of lead else []

/-- The share of the pool's limit that is gone once the demand is taken. -/
def PoolState.pressure (pool : PoolState) (current : Capacity.Policy) (estimate : Estimate)
    (amount : Nat) (lead : Bool) : Option Rat :=
  match pool.reported_limit, pool.reported_remaining with
  | some limit, some remaining =>
    if 0 < limit.units ∧ pool.unknown estimate = false then
      let gone : Int := (limit.units : Int) - remaining.units + pool.local_uncovered.units +
        pool.future_reserved.units + quantityOf current.safety_margin pool.id +
        roleReserve current lead pool.id + amount
      some (gone / limit.units)
    else none
  | _, _ => none

def evaluateQuota (account : AccountState) (estimate : Estimate) (pool : PoolState) (amount : Nat)
    (lead : Bool) : QuotaEvaluation :=
  let current := account.policy
  { observation := pool
    safety_margin := quantityOf current.safety_margin pool.id
    role_reserve := roleReserve current lead pool.id
    available_before_demand :=
      if pool.unknown estimate then none else pool.available current lead
    pressure := pool.pressure current estimate amount lead
    unknown_mode := pool.unknown estimate
    capacity_policy_revision := account.policy_revision }

-- Resources

structure PoolCheck where
  reasons : List Reason
  evaluation : Option PoolEvaluation

def checkPool (policy : PolicySnapshot) (capacity : CapacitySnapshot)
    (account : AccountState) (account_id : String) (estimate : Estimate) (lead : Bool)
    (revalidate_quota : Bool) (pool_id : String) : PoolCheck :=
  match capacity.pool? pool_id with
  | none => ⟨[.poolSnapshotMissing pool_id], none⟩
  | some pool =>
    let bound := reasonIf (!poolBound policy pool account_id) (.poolBindingMismatch pool_id)
    match estimate.demands.get? pool_id with
    | none => ⟨bound, none⟩
    | some demand =>
      let amount := demand.amount.units
      let evaluation : PoolEvaluation := ⟨pool_id, pool.unit, pool.window_id, demand.amount, none⟩
      if revalidate_quota then
        ⟨bound ++ demandReasons pool demand ++
          quotaReasons account task estimate pool amount capacity.as_of lead,
          some { evaluation with quota := some (evaluateQuota account estimate pool amount lead) }⟩
      else ⟨bound ++ demandReasons pool demand, some evaluation⟩

/-- The band of the least certain of the estimate and the pools. -/
def uncertaintyBand (estimate : Estimate) (evaluations : List QuotaEvaluation) : Nat :=
  evaluations.foldl (fun band evaluation =>
    if evaluation.unknown_mode then 2 else max band evaluation.observation.confidence.band)
    estimate.confidence.band

def quotaSortInputs (estimate : Estimate) (evaluations : List PoolEvaluation) : SortInputs :=
  let quotas := evaluations.filterMap PoolEvaluation.quota
  { SortInputs.empty with
    uncertainty_band := some (uncertaintyBand estimate quotas)
    bottleneck_quota_pressure := (quotas.filterMap QuotaEvaluation.pressure).max?
    completion_time_estimate := estimate.completion_seconds }

def checkDemand (row : Candidate) (task : TaskSnapshot) (policy : PolicySnapshot)
    (capacity : CapacitySnapshot) (account : AccountState) (registered : RegisteredProfile)
    (account_id : String) (estimate : Estimate) (lead : Bool) (revalidate_quota : Bool) : Candidate :=
  let pool_ids := registered.quota_pool_refs
  let checks := (pool_ids.insertionSort (· ≤ ·)).map
    (checkPool task policy capacity account account_id estimate lead revalidate_quota)
  let evaluations := checks.filterMap PoolCheck.evaluation
  { row with
    pool_evaluations := evaluations
    sort_inputs := if revalidate_quota then quotaSortInputs estimate evaluations
      else row.sort_inputs }.refuse
    (vectorReasons pool_ids estimate ++ checks.flatMap PoolCheck.reasons)

def checkResources (row : Candidate) (task : TaskSnapshot) (policy : PolicySnapshot)
    (capacity : CapacitySnapshot) (rule : Rule) (revalidate_quota : Bool) : Candidate :=
  match policy.resources.bound? row.profile with
  | none => row
  | some (registered, profile) =>
    let account_id := profile.binding.account_id
    match capacity.account? account_id with
    | none => row.refuse [.capacityAccountMissing]
    | some account =>
      let lead := leadAccess task rule
      let row := { row with
        capacity_policy := some ⟨account_id, account.policy_revision, account.current_policy_revision⟩ }.refuse
        (accountReasons account account_id task ++
          if revalidate_quota then liveAccountReasons account capacity.as_of lead else [])
      match capacity.estimate? row.profile with
      | none => row.refuse [.resourceEstimateMissing]
      | some estimate =>
        checkDemand row task policy capacity account registered account_id estimate lead
          revalidate_quota

def checkQuota (row : Candidate) (task : TaskSnapshot) (policy : PolicySnapshot)
    (capacity : CapacitySnapshot) (rule : Rule) : Candidate :=
  checkResources row task policy capacity rule true

/-- The demand alone: the quota is the business of the admission that is held. -/
def checkReservedInputs (row : Candidate) (task : TaskSnapshot) (policy : PolicySnapshot)
    (capacity : CapacitySnapshot) (rule : Rule) : Candidate :=
  checkResources row task policy capacity rule false

-- Cash and rank

-- Cash

/-- Each call of the profile is bounded, by the facts and by what the profile reports. -/
def boundedReasons (facts : Option ProfileFacts) (profile : Profile) : List Reason :=
  reasonIf (!facts.any (·.budget_enforcement = .boundedCalls) ||
    profile.admission_granularity ≠ .modelCall || profile.usage_coverage ≠ .modelCall)
    .boundedCallsRequired

/-- That calls are bounded was shown for the profile as it is bound. -/
def boundedEvidenceReasons (registered : RegisteredProfile) (profile : Profile)
    (profile_hash : String) : List Reason :=
  let evidence := registered.capability_evidence.find? (·.capability = "bounded_calls")
  reasonIf (!evidence.any fun e => e.qualifies profile profile_hash && e.evidence_ref.any (· ≠ ""))
    .boundedCallsUnqualified

def priceReasons (price : PriceQuote) (as_of : Rat) (profile : Profile) (profile_hash : String) : List Reason :=
  reasonIf (!(price.observed_at ≤ as_of && as_of < price.valid_until) ||
    price.profile_digest ≠ profile_hash || price.runtime_version ≠ profile.binding.runtime_version)
    .priceStaleOrMismatched

def PriceQuote.bound? (price : PriceQuote) : Option Quantity :=
  if price.coverage = .allCalls then price.upper_bound else none

def planningBudget : Bool := task.role = .commander

def configuredBudget (policy : PolicySnapshot) : Option String :=
  let resources := policy.rulebook.resource_policy
  if planningBudget task then resources.planning_budget_ref else resources.run_budget_ref

/-- The budget the task is authorized for, where it is the one that is configured. -/
def budget? (policy : PolicySnapshot) : Option Budget :=
  let budget_id := task.authorization.budget_ref
  (policy.resources.budgets.find? (·.id = budget_id)).filter fun budget =>
    some budget_id = configuredBudget task policy &&
    budget.scope = if planningBudget task then .planning else .run

/-- The limits in the currency of the price, each of them stated or not. -/
def cashBounds (capacity : CapacitySnapshot) (profile : Profile)
    (budget : Budget) (currency : String) : List (Option Quantity) :=
  [task.authorization.currency_limits.get? currency,
    (budget.currency_limits.get? currency).join,
    (capacity.budget_remaining.get? task.authorization.budget_ref).bind (·.get? currency),
    (capacity.account? profile.binding.account_id).bind (·.cash_remaining.get? currency)]

def budgetReasons (policy : PolicySnapshot) (capacity : CapacitySnapshot)
    (profile : Profile) (currency : String) (upper : Quantity) : List Reason :=
  match budget? task policy with
  | none => [.cashBudgetNotAuthorized]
  | some budget =>
    let bounds := cashBounds task capacity profile budget currency
    if bounds.any Option.isNone then [.cashBudgetMissing]
    else reasonIf (bounds.any (·.any (·.units < upper.units))) .cashBudgetInsufficient

/-- What stands against the price of a profile that is billed in cash. -/
def cashReasons (policy : PolicySnapshot) (capacity : CapacitySnapshot)
    (profile : Profile) (profile_hash : String) (price : PriceQuote) : List Reason :=
  priceReasons price capacity.as_of profile profile_hash ++
  match price.bound? with
  | none => [.cashUpperBoundUnverified]
  | some upper =>
    reasonIf (price.estimated_cash.any (upper.units < ·.units)) .priceEstimateExceedsUpperBound ++
    budgetReasons task policy capacity profile price.currency upper

end

def checkCash (L : Library) (row : Candidate) (task : TaskSnapshot) (policy : PolicySnapshot)
    (capacity : CapacitySnapshot) : Candidate :=
  match policy.resources.bound? row.profile with
  | none => row
  | some (registered, profile) =>
    if profile.binding.billing_path = .subscriptionOnly then
      { row with cash := some ⟨none, some ⟨"0", 0⟩, some ⟨"0", 0⟩⟩ }
    else
      let profile_hash := L.digest profile.document
      let row := row.refuse (boundedReasons row.qualification_evidence profile ++
        boundedEvidenceReasons registered profile profile_hash)
      match (capacity.estimate? row.profile).bind Estimate.price with
      | none => row.refuse [.priceMissing]
      | some price =>
        { row with cash := some ⟨some price.currency, price.estimated_cash, price.upper_bound⟩ }.refuse
          (cashReasons task policy capacity profile profile_hash price)

-- Comparing candidates

def known (value : Option Rat) : Nat ×ₗ Rat :=
  match value with
  | none => toLex (1, 0)
  | some value => toLex (0, value)

abbrev KeyPart := (Nat ×ₗ Rat) ⊕ₗ ProfileRef

def keyPart (row : Candidate) : Criterion → KeyPart
  | .preferenceBand => .inlₗ (known (row.sort_inputs.preference_band.map fun band => (band : Rat)))
  | .uncertaintyBand => .inlₗ (known (row.sort_inputs.uncertainty_band.map fun band => (band : Rat)))
  | .bottleneckQuotaPressure => .inlₗ (known row.sort_inputs.bottleneck_quota_pressure)
  | .incrementalCashEstimate => .inlₗ (known row.sort_inputs.incremental_cash_estimate)
  | .completionTimeEstimate => .inlₗ (known row.sort_inputs.completion_time_estimate)
  | .profileId => .inrₗ row.profile

def sortKey (order : List Criterion) (row : Candidate) : List KeyPart := order.map (keyPart row)

inductive CashMode
  | notEvaluated
  | originalCurrency
  | referenceFx
  | skipped
deriving DecidableEq

structure CashSort where
  mode : CashMode
  currencies : List String
  effective_candidate_order : List Criterion

def currencies (candidates : List Candidate) : List String :=
  sortedSet ((candidates.filter (·.reason_codes = [])).filterMap fun row =>
    row.cash.bind Cash.currency)

def FXSnapshot.comparable (fx : FXSnapshot) (as_of : Rat) (currencies : List String) : Bool :=
  fx.observed_at ≤ as_of && as_of < fx.valid_until &&
  currencies.all (fun currency => (fx.rates.get? currency).any (0 < ·.units)) &&
  quantityOf fx.rates fx.reference_currency = 1000000

def cashSort (candidates : List Candidate) (policy : PolicySnapshot) (capacity : CapacitySnapshot) : CashSort :=
  let found := currencies candidates
  let comparable := found.length ≤ 1 || capacity.fx.any (·.comparable capacity.as_of found)
  { mode := if found.length ≤ 1 then .originalCurrency
      else if comparable then .referenceFx else .skipped
    currencies := found
    effective_candidate_order := policy.rulebook.resource_policy.candidate_order.filter fun name =>
      comparable || name ≠ .incrementalCashEstimate }

/-- The estimate as a number, in the reference currency where rates are used. -/
def convertedCash (cash : Option Cash) (mode : CashMode) (fx : Option FXSnapshot) : Option Rat := do
  let cash ← cash
  let estimate ← cash.estimate
  let amount : Rat := estimate.units / 1000000
  match mode, cash.currency with
  | .referenceFx, some currency =>
    let rate ← (← fx).rates.get? currency
    return amount * (rate.units / 1000000)
  | _, _ => return amount

def preferenceBand (rule : Rule) (profile : ProfileRef) : Int :=
  ((Dict.ofList (rule.profile_preferences.map fun p => (p.profile, p.band))).get? profile).getD 0

def withSortInputs (rule : Rule) (capacity : CapacitySnapshot) (mode : CashMode) (row : Candidate) : Candidate :=
  { row with
    sort_inputs := { row.sort_inputs with
      preference_band := some (preferenceBand rule row.profile)
      incremental_cash_estimate :=
        if mode = .skipped then none else convertedCash row.cash mode capacity.fx } }

def rankedBy (order : List Criterion) (rows : List Candidate) : List Candidate :=
  (rows.filter (·.reason_codes = [])).insertionSort fun a b => sortKey order a ≤ sortKey order b

/-- The place of each candidate among the ranked ones, from one on. -/
def withRank (ranked : List Candidate) (row : Candidate) : Candidate :=
  { row with rank := if row.reason_codes = [] then
      (ranked.findIdx? (·.profile = row.profile)).map (· + 1) else none }

/-- The candidates with their ranks, the eligible ones in order, and how cash was compared. -/
def rank (candidates : List Candidate) (rule : Rule) (policy : PolicySnapshot)
    (capacity : CapacitySnapshot) : List Candidate × List ProfileRef × CashSort :=
  let sort := cashSort candidates policy capacity
  let rows := candidates.map (withSortInputs rule capacity sort.mode)
  let ranked := rankedBy sort.effective_candidate_order rows
  (rows.map (withRank ranked), ranked.map Candidate.profile, sort)

end Karajan.Routing
