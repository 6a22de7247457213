import Karajan.Capacity.Store
import Karajan.Routing.Evaluator

/-!
# Capacity facts

What the capacity ledger knows of its accounts at one instant, as routing reads
it. The facts are captured in one transaction and decide nothing.
-/

namespace Karajan.Assessing

open Capacity Check Listing

/-- The largest amount that a quantity may state, in millionths. -/
def maxQuantity : Nat := 9223372036854775807

-- Diagnostics

inductive PoolDiagnostic
  | capacityPolicyRequired
  | observationRequired
  | observationConfidenceUnavailable
  | observationTimeInFuture
  | observationStale
  | windowExpired
  | officialObservationRequired
  | quotaUnknown
  | reportedUsageExceedsLimit
  | exhaustionRequiresNewObservation
  | routingQuantityOutOfRange

def PoolDiagnostic.text : PoolDiagnostic → String
  | .capacityPolicyRequired => "CAPACITY_POLICY_REQUIRED"
  | .observationRequired => "OBSERVATION_REQUIRED"
  | .observationConfidenceUnavailable => "OBSERVATION_CONFIDENCE_UNAVAILABLE"
  | .observationTimeInFuture => "OBSERVATION_TIME_IN_FUTURE"
  | .observationStale => "OBSERVATION_STALE"
  | .windowExpired => "WINDOW_EXPIRED"
  | .officialObservationRequired => "OFFICIAL_OBSERVATION_REQUIRED"
  | .quotaUnknown => "QUOTA_UNKNOWN"
  | .reportedUsageExceedsLimit => "REPORTED_USAGE_EXCEEDS_LIMIT"
  | .exhaustionRequiresNewObservation => "EXHAUSTION_REQUIRES_NEW_OBSERVATION"
  | .routingQuantityOutOfRange => "ROUTING_QUANTITY_OUT_OF_RANGE"

-- Facts

structure PoolFacts extends Pool where
  observation : Option Observation
  reported_remaining : Option Int
  (local_uncovered future_reserved : Nat)
  exhaustion_requires_new_observation : Bool
  diagnostics : List PoolDiagnostic

structure AccountFacts where
  id : String
  policy_revision : Option Nat
  policy : Option Policy
  profiles : List Profile
  held_attempts : Nat
  cooldown_until : Option Rat
  exhaustion_requires_new_observation : Bool
  pools : List PoolFacts

structure CapacityFacts where
  captured_at : Rat
  accounts : List AccountFacts

-- Pools

/-- The usage a pool was not reported for: without an observation, all of it. -/
def localUncovered (all_usage : List UsageRow) (pool : Pool) : Option Observation → Nat
  | some observed => uncoveredUsage all_usage pool observed
  | none => (all_usage.map fun row => quantityOf row.receipt.amounts pool.id).sum

/-- The pool is exhausted as far as it was observed. A pool without an observation has
no number to set against a failure. -/
def poolExhausted (t : Tables) (pool : Pool) (failures : List FailureRow) : Bool :=
  match t.observation pool.id with
  | some observed => exhausted t pool observed failures
  | none => failures.any (·.exhausts pool)

def observationDiagnostics (pool : Pool) (policy : Option Policy) (now : Rat) :
    Option Observation → List PoolDiagnostic
  | none => [.observationRequired]
  | some observed =>
    .observationConfidenceUnavailable ::
    reasonIf (now < observed.observed_at) .observationTimeInFuture ++
    reasonIf (policy.any fun policy =>
      (policy.observation_max_age_seconds : Rat) < now - observed.observed_at) .observationStale ++
    reasonIf (observed.reset_at.any (· ≤ now)) .windowExpired ++
    reasonIf (pool.kind = .service && policy.any (·.require_official_observation) &&
      observed.source ≠ .official) .officialObservationRequired

def outOfRange (value : Int) : Bool := value < 0 || (maxQuantity : Int) < value

def poolFacts (t : Tables) (policy : Option Policy) (held : List Reservation)
    (failures : List FailureRow) (now : Rat) (pool : Pool) : PoolFacts :=
  let all_usage := t.usageOf pool.account_id
  let observed := t.observation pool.id
  let remaining := observed.bind Observation.numericRemaining
  let uncovered := localUncovered all_usage pool observed
  let future := futureUsage all_usage pool.id held
  let exhausted := poolExhausted t pool failures
  { toPool := pool
    observation := observed
    reported_remaining := remaining
    local_uncovered := uncovered
    future_reserved := future
    exhaustion_requires_new_observation := exhausted
    diagnostics :=
      reasonIf policy.isNone .capacityPolicyRequired ++
      observationDiagnostics pool policy now observed ++
      reasonIf remaining.isNone .quotaUnknown ++
      reasonIf (remaining.any (· < 0)) .reportedUsageExceedsLimit ++
      reasonIf exhausted .exhaustionRequiresNewObservation ++
      reasonIf (remaining.any outOfRange || outOfRange uncovered || outOfRange future)
        .routingQuantityOutOfRange }

-- Accounts

/-- The reservation occupies capacity at the instant, though its expiry may not be written. -/
def effectiveHeld (now : Rat) (item : Reservation) : Bool :=
  item.state = .active || item.state = .unknown ||
    (item.state = .reserved && !item.lapsed now)

def accountFacts (t : Tables) (now : Rat) (identity : String) : AccountFacts :=
  let policy := t.policy identity
  let held := (t.reservationsOf identity).filter (effectiveHeld now)
  let failures := t.failuresOf identity
  let pools := ((t.pools.values.filter (·.account_id = identity)).insertionSort (·.id ≤ ·.id)).map
    (poolFacts t policy held failures now)
  { id := identity
    policy_revision := policy.map fun _ => t.policyRevision identity
    policy
    profiles := t.profiles.values.filter (·.account_id = identity)
    held_attempts := held.length
    cooldown_until := ((failures.map FailureRow.until_time).filter (now < ·)).max?
    exhaustion_requires_new_observation :=
      pools.any (·.exhaustion_requires_new_observation) ||
        (!pools.any (·.kind = .service) &&
          failures.any (·.failure.reason = .quotaExhausted))
    pools }

inductive FactsError
  | inputInvalid
  | accountUnknown

def knownAccounts (t : Tables) : List String := sortedSet (t.pools.values.map Pool.account_id ++ t.policies.keys)

/-- The accounts that are asked for, none standing for all of them. -/
def selectedAccounts (t : Tables) : Option (List String) → Except FactsError (List String)
  | none => .ok (knownAccounts t)
  | some account_ids => do
    ensure (account_ids.length ≤ 10000 && decide account_ids.Nodup) .inputInvalid
    ensure (account_ids.all (· ∈ knownAccounts t)) .accountUnknown
    return sortedSet account_ids

def captureRoutingFacts (t : Tables) (account_ids : Option (List String)) (now : Rat) :
    Except FactsError CapacityFacts := do
  let selected ← selectedAccounts t account_ids
  return { captured_at := now, accounts := selected.map (accountFacts t now) }

-- Assessments

open Routing (AccountState CapacitySnapshot Confidence Demand Estimate PolicySnapshot PoolState
  PriceQuote ProfileRef RegisteredProfile ResourceCatalog Rule Rulebook TaskSnapshot Report
  RoutingError evaluateRoute leadAccess selectCompiledRule)

-- Parsing facts

def money (value : Nat) : String :=
  let places := toString (value % 1000000)
  let zeros := "".pushn '0' (6 - places.length)
  s!"{value / 1000000}.{zeros}{places}"

def parseQuantity (value : Int) : Option Quantity :=
  if outOfRange value then none else some ⟨money value.toNat, value.toNat⟩

def parseRemaining : Option Int → Option (Option Quantity)
  | none => some none
  | some value => (parseQuantity value).map some

/-- A limit is read back from the observation, as the text it was given in. -/
def parseLimit : Option Quantity → Option (Option Quantity)
  | none => some none
  | some limit => if limit.text.length ≤ 64 then some (some limit) else none

def maxCount : Nat := 1000000000

section
variable (source : AccountFacts)

def parseAccount (policy : Policy) : Option AccountState := do
  let policy_revision ← source.policy_revision
  if policy_revision = 0 || maxCount < policy_revision || maxCount < source.held_attempts then none
  else some {
    id := source.id
    policy_revision
    current_policy_revision := policy_revision
    policy
    active_attempts := source.held_attempts
    cash_remaining := .empty
    cooldown_until := source.cooldown_until
    exhaustion_observation_required := source.exhaustion_requires_new_observation }

def parsePool (pool : PoolFacts) (observed : Observation) : Option PoolState := do
  let reported_remaining ← parseRemaining pool.reported_remaining
  let reported_limit ← parseLimit observed.limit
  let local_uncovered ← parseQuantity pool.local_uncovered
  let future_reserved ← parseQuantity pool.future_reserved
  return {
    id := pool.id
    account_id := pool.account_id
    kind := pool.kind
    unit := pool.unit
    window_kind := pool.window_kind
    window_id := observed.window_id
    reported_remaining
    reported_limit
    local_uncovered
    future_reserved
    observed_at := observed.observed_at
    reset_at := observed.reset_at
    source := observed.source
    confidence := .unknown }

-- The snapshot

/-- The ledger has the profile, with the pools it is registered with. -/
def AccountFacts.registers (registration : RegisteredProfile) : Bool :=
  (source.profiles.find? fun p => (⟨p.id, p.revision⟩ : ProfileRef) = registration.toProfileRef).any
    fun registered => sameKeys registered.pool_ids registration.quota_pool_refs

/-- The registration is of the account, but not as the ledger has it. -/
def AccountFacts.mismatches (registration : RegisteredProfile) : Bool :=
  registration.profile.any (·.binding.account_id = source.id) && !source.registers registration

structure CapacitySource where
  account_id : String
  reason_codes : List String

def poolReasonCodes (pool : PoolFacts) : List String :=
  pool.diagnostics.map (fun diagnostic => diagnostic.text ++ ":" ++ pool.id) ++
    match pool.observation with
    | none => []
    | some observed =>
      if (parsePool pool observed).isSome then [] else ["CAPACITY_POOL_FACTS_INVALID:" ++ pool.id]

def accountReasonCodes : List String :=
  match source.policy with
  | none => ["CAPACITY_POLICY_REQUIRED"]
  | some policy =>
    if (parseAccount source policy).isSome then [] else ["CAPACITY_ACCOUNT_FACTS_INVALID"]

def capacitySource (resources : ResourceCatalog) (source : AccountFacts) : CapacitySource where
  account_id := source.id
  reason_codes := sortedSet (accountReasonCodes source ++ source.pools.flatMap poolReasonCodes ++
    (resources.profiles.filter source.mismatches).map fun registration =>
      "CAPACITY_PROFILE_BINDING_MISMATCH:" ++ registration.id)

def observedPools : List PoolState := source.pools.filterMap fun pool => pool.observation.bind (parsePool pool)

end

def relevantAccounts (facts : CapacityFacts) (resources : ResourceCatalog) : List AccountFacts :=
  facts.accounts.filter fun source =>
    resources.profiles.any fun registration =>
      registration.profile.any (·.binding.account_id = source.id)

/-- The snapshot, the catalog without the profiles that the ledger has otherwise, and
what was found of each account. -/
def capacitySnapshot (facts : CapacityFacts) (resources : ResourceCatalog) :
    CapacitySnapshot × ResourceCatalog × List CapacitySource :=
  let sources := relevantAccounts facts resources
  ({ as_of := facts.captured_at
     accounts := sources.filterMap fun source => source.policy.bind (parseAccount source)
     pools := sources.flatMap observedPools
     estimates := []
     budget_remaining := .empty
     fx := none },
   { resources with
     profiles := resources.profiles.map fun registration =>
       { registration with
         enabled := registration.enabled && !sources.any (·.mismatches registration) } },
   sources.map (capacitySource resources))

-- Estimates

structure PoolWindow where
  (pool_id account_id : String)
  kind : PoolKind
  unit : QuotaUnit
  window_kind : WindowKind
  window_id : String

structure Resolution where
  demand : List Demand
  confidence : Confidence
  completion_seconds : Option Rat
  price : Option PriceQuote

def Resolution.estimate (resolution : Resolution) (profile : ProfileRef) : Estimate :=
  { profile
    demand := resolution.demand
    confidence := resolution.confidence
    completion_seconds := resolution.completion_seconds
    price := resolution.price }

def poolWindows (snapshot : CapacitySnapshot) (registration : RegisteredProfile) : List PoolWindow :=
  (snapshot.pools.filter (·.id ∈ registration.quota_pool_refs)).map fun pool =>
    ⟨pool.id, pool.account_id, pool.kind, pool.unit, pool.window_kind, pool.window_id⟩

abbrev EstimateStore := ProfileRef → List PoolWindow → Rat → Option Resolution

def estimatesOf (resolve : EstimateStore) (snapshot : CapacitySnapshot)
    (resources : ResourceCatalog) : List Estimate :=
  resources.profiles.filterMap fun registration =>
    (resolve registration.toProfileRef (poolWindows snapshot registration) snapshot.as_of).map
      (·.estimate registration.toProfileRef)

-- The assessment

structure Expectation where
  profile : ProfileRef
  expected_capacity : ExpectedCapacity

def expectedCapacity (task : TaskSnapshot) (rule : Rule) (account : AccountState)
    (estimate : Estimate) : ExpectedCapacity where
  policy_revision := account.policy_revision
  pool_windows := .ofList (estimate.demand.map fun d => (d.pool_id, d.window_id))
  lead_reserve_access := leadAccess task rule

def expectationOf (task : TaskSnapshot) (rule : Option Rule) (resources : ResourceCatalog)
    (snapshot : CapacitySnapshot) (estimate : Estimate) : Option Expectation := do
  let (_, profile) ← resources.bound? estimate.profile
  let account ← snapshot.account? profile.binding.account_id
  let rule ← rule
  return ⟨estimate.profile, expectedCapacity task rule account estimate⟩

structure Assessment where
  (run_id planned_attempt_id : String)
  approval : Json
  task : TaskSnapshot
  policy : PolicySnapshot
  capacity : CapacitySnapshot
  capacity_sources : List CapacitySource
  route : Report
  admission_expectations : List Expectation

def assess (L : Routing.Library) (resolve : EstimateStore) (run_id : String) (approval : Json)
    (task : TaskSnapshot) (policy : PolicySnapshot) (facts : CapacityFacts) : Except RoutingError Assessment := do
  let (snapshot, resources, capacity_sources) := capacitySnapshot facts policy.resources
  let capacity := { snapshot with estimates := estimatesOf resolve snapshot resources }
  let policy := { policy with resources }
  let rule := (selectCompiledRule L task.toTaskClassification policy.rulebook policy.risk_policy).rule
  let route ← evaluateRoute L task policy capacity
  return {
    run_id
    planned_attempt_id := task.planned_attempt_id
    approval
    task
    policy
    capacity
    capacity_sources
    route
    admission_expectations := capacity.estimates.filterMap
      (expectationOf task rule resources capacity) }

-- The request

inductive RequestError
  | expectationMissing
  | estimateMissing

def roleOf : Execution.Role → Capacity.Role
  | .commander => .commander
  | .worker => .worker
  | .reviewer => .reviewer

def newRequest (L : Routing.Library) (rulebookDigest : Rulebook → String) (a : Assessment)
    (profile : ProfileRef) (expectation : Expectation) (estimate : Estimate) : AdmissionRequest where
  attempt_id := a.planned_attempt_id
  run_id := a.run_id
  profile_id := profile.id
  profile_revision := profile.revision
  role := roleOf a.task.role
  purpose := a.task.purpose
  authorization_ref := L.digest a.approval
  rulebook_revision := rulebookDigest a.policy.rulebook
  duration_seconds := a.task.duration_seconds
  demand := .ofList (estimate.demand.map fun d => (d.pool_id, d.amount))
  expected_capacity := some expectation.expected_capacity

/-- The request an assessment is admitted with, none where no route was selected. -/
def requestOf (L : Routing.Library) (rulebookDigest : Rulebook → String) (a : Assessment) :
    Except RequestError (Option AdmissionRequest) :=
  match a.route.selected_profile with
  | none => .ok none
  | some profile => do
    let expectation ← need (a.admission_expectations.find? (·.profile = profile))
      .expectationMissing
    let estimate ← need (a.capacity.estimate? profile) .estimateMissing
    return some (newRequest L rulebookDigest a profile expectation estimate)

end Karajan.Assessing
