import Karajan.Assessing.Snapshot
import Karajan.Capacity.Windows
import Karajan.Routing.Ranks

/-!
# What is selected can be admitted

Routing reads the capacity ledger through a snapshot and judges a quota by its
own rules; the ledger judges it again from its rows. Here each thing that
routing was satisfied with is shown to be what the ledger asks for.
-/

namespace Karajan.Assessing

open Capacity List Dict
open Routing (AccountState CapacitySnapshot Estimate Opens PolicySnapshot PoolState ProfileRef
  RegisteredProfile ResourceCatalog Rule Rulebook TaskSnapshot checkPool evaluateRoute leadAccess
  liveAccountReasons poolReasons quotaReasons resourceReasons)
open Check Listing

-- What the facts say

theorem effectiveHeld_eq : effectiveHeld now item = (item.state.holds && !item.lapsed now) := by
  unfold effectiveHeld Reservation.lapsed ReservationState.holds
  cases item.state <;> simp

theorem held_captured (hk : Keyed t) : (t.reservationsOf identity).filter (effectiveHeld now) =
    (expire identity now t).held identity := by
  rw [held_expire hk, Tables.held, filter_filter]
  exact filter_congr fun item _ => by rw [effectiveHeld_eq, Bool.and_comm]

theorem capture_ok (h : captureRoutingFacts t account_ids now = .ok facts) :
    facts.captured_at = now ∧ ∀ source ∈ facts.accounts, source = accountFacts t now source.id := by
  simp only [captureRoutingFacts, bind_ok, pure_ok] at h
  obtain ⟨selected, -, rfl⟩ := h
  refine ⟨rfl, fun source hsource => ?_⟩
  obtain ⟨identity, -, rfl⟩ := List.mem_map.mp hsource
  rfl

theorem mem_accountPools : fact ∈ (accountFacts t now identity).pools ↔
    ∃ pool ∈ t.pools.values, pool.account_id = identity ∧
      fact = poolFacts t (t.policy identity) ((t.reservationsOf identity).filter (effectiveHeld now))
        (t.failuresOf identity) now pool := by
  simp [accountFacts, and_assoc, eq_comm]

/-- What the snapshot has of an account is what the ledger has. -/
structure Reads (t : Tables) (now : Rat) (account_id : String) (account : AccountState) : Prop where
  policy : t.policy account_id = some account.policy
  revision : account.policy_revision = t.policyRevision account_id
  held : account.active_attempts = ((expire account_id now t).held account_id).length
  cooldown : account.cooldown_until.any (now < ·) = false →
    ∀ failure ∈ t.failuresOf account_id, failure.until_time ≤ now
  unexhausted : account.exhaustion_observation_required = false →
    ∀ k pool, t.pools.get? k = some pool → pool.account_id = account_id →
      ∀ observed, t.observation pool.id = some observed →
        exhausted t pool observed (t.failuresOf account_id) = false

theorem parseAccount_eq_some (h : parseAccount source policy = some account) :
    source.policy_revision = some account.policy_revision ∧ account.id = source.id ∧
      account.policy = policy ∧ account.active_attempts = source.held_attempts ∧
      account.cooldown_until = source.cooldown_until ∧
      account.exhaustion_observation_required = source.exhaustion_requires_new_observation := by
  simp only [parseAccount, Option.bind_eq_bind, Option.bind_eq_some_iff] at h
  obtain ⟨revision, hrevision, h⟩ := h
  split at h
  · cases h
  · cases h
    exact ⟨hrevision, rfl, rfl, rfl, rfl, rfl⟩

theorem cooldown_passed {times : List Rat} (h : (times.filter (now < ·)).max?.any (now < ·) = false) :
    ∀ until_time ∈ times, until_time ≤ now := by
  intro until_time htime
  by_contra hlater
  have hmem : until_time ∈ times.filter (now < ·) := List.mem_filter.mpr ⟨htime, by simpa using hlater⟩
  obtain ⟨latest, hlatest⟩ := Option.isSome_iff_exists.mp (isSome_max?_of_mem hmem)
  have hbound := of_mem_filter (max?_mem hlatest)
  simp only [hlatest, Option.any_some] at h
  rw [h] at hbound
  cases hbound

theorem accountFacts_reads (hk : Keyed t) (hpolicy : t.policy identity = some policy)
    (h : parseAccount (accountFacts t now identity) policy = some account) : Reads t now identity account := by
  obtain ⟨hrevision, -, rfl, hheld, hcooldown, hexhaustion⟩ := parseAccount_eq_some h
  refine ⟨hpolicy, ?_, ?_, fun hpassed failure hfailure => ?_, fun hclear k pool hpool haccount
    observed hobserved => ?_⟩
  · simpa [accountFacts, hpolicy, eq_comm] using hrevision
  · rw [hheld, ← held_captured hk]
    rfl
  · rw [hcooldown] at hpassed
    exact cooldown_passed hpassed _ (mem_map_of_mem hfailure)
  · rw [hexhaustion] at hclear
    simp only [accountFacts, Bool.or_eq_false_iff] at hclear
    have hany := List.any_eq_false.mp hclear.1 _
      (mem_accountPools.mpr ⟨pool, Dict.mem_values.mpr ⟨k, hpool⟩, haccount, rfl⟩)
    simpa [poolFacts, poolExhausted, hobserved] using hany

theorem account_captured (hk : Keyed t) (hcapture : captureRoutingFacts t account_ids now = .ok facts)
    (h : (capacitySnapshot facts resources).1.account? account_id = some account) :
    ∃ source ∈ relevantAccounts facts resources, source.id = account_id ∧
      Reads t now account_id account := by
  have hid : account.id = account_id := by simpa using find?_some h
  obtain ⟨source, hsource, hparse⟩ := List.mem_filterMap.mp (mem_of_find?_eq_some h)
  obtain ⟨policy, hpolicy, hparse⟩ := Option.bind_eq_some_iff.mp hparse
  have hsame : source.id = account_id := (parseAccount_eq_some hparse).2.1.symm.trans hid
  have hfacts := (capture_ok hcapture).2 source (mem_of_mem_filter hsource)
  rw [hsame] at hfacts
  subst hfacts
  exact ⟨_, hsource, rfl, accountFacts_reads hk hpolicy hparse⟩

theorem parseQuantity_eq_some (h : parseQuantity value = some quantity) : (quantity.units : Int) = value := by
  unfold parseQuantity at h
  split at h
  · cases h
  case isFalse hrange =>
    cases h
    simp only [outOfRange, Bool.or_eq_true, decide_eq_true_eq, not_or, not_lt] at hrange
    exact Int.toNat_of_nonneg hrange.1

theorem parseRemaining_eq_some (h : parseRemaining value = some remaining) :
    remaining.map (fun quantity => (quantity.units : Int)) = value := by
  unfold parseRemaining at h
  split at h
  · cases h
    rfl
  · obtain ⟨quantity, hquantity, rfl⟩ := Option.map_eq_some_iff.mp h
    rw [Option.map_some, parseQuantity_eq_some hquantity]

structure Shows (t : Tables) (now : Rat) (pool : Pool) (observed : Observation)
    (found : PoolState) : Prop where
  id : found.id = pool.id
  kind : found.kind = pool.kind
  window : found.window_id = observed.window_id
  observed_at : found.observed_at = observed.observed_at
  reset_at : found.reset_at = observed.reset_at
  source : found.source = observed.source
  confidence : found.confidence = .unknown
  remaining : found.reported_remaining.map (fun quantity => (quantity.units : Int)) = observed.numericRemaining
  uncovered : found.local_uncovered.units = uncoveredUsage (t.usageOf pool.account_id) pool observed
  future : found.future_reserved.units = futureUsage (t.usageOf pool.account_id) pool.id
    ((expire pool.account_id now t).held pool.account_id)

theorem poolFacts_shows (hk : Keyed t) (hobserved : t.observation pool.id = some observed)
    (h : parsePool (poolFacts t policy ((t.reservationsOf pool.account_id).filter
      (effectiveHeld now)) failures now pool) observed = some found) : Shows t now pool observed found := by
  simp only [parsePool, Option.bind_eq_bind, Option.bind_eq_some_iff, Option.pure_def, Option.some.injEq] at h
  obtain ⟨remaining, hremaining, limit, -, uncovered, huncovered, future, hfuture, rfl⟩ := h
  refine ⟨rfl, rfl, rfl, rfl, rfl, rfl, rfl, ?_, ?_, ?_⟩
  · rw [parseRemaining_eq_some hremaining]
    simp [poolFacts, hobserved]
  · have hunits := parseQuantity_eq_some huncovered
    simpa [poolFacts, localUncovered, hobserved] using hunits
  · have hunits := parseQuantity_eq_some hfuture
    rw [← held_captured hk]
    simpa [poolFacts] using hunits

theorem pool_captured (hk : Keyed t) (ha : Accounted t)
    (hcapture : captureRoutingFacts t account_ids now = .ok facts)
    (h : (capacitySnapshot facts resources).1.pool? pool_id = some found) :
    ∃ pool observed, t.pools.get? pool_id = some pool ∧ t.observation pool.id = some observed ∧
      Shows t now pool observed found := by
  have hid : found.id = pool_id := by simpa using find?_some h
  obtain ⟨source, hsource, hfound⟩ := List.mem_flatMap.mp (mem_of_find?_eq_some h)
  obtain ⟨fact, hfact, hparse⟩ := List.mem_filterMap.mp hfound
  obtain ⟨observed, hobservation, hparse⟩ := Option.bind_eq_some_iff.mp hparse
  rw [(capture_ok hcapture).2 source (mem_of_mem_filter hsource)] at hfact
  obtain ⟨pool, hpool, haccount, rfl⟩ := mem_accountPools.mp hfact
  rw [← haccount] at hparse
  have hobserved : t.observation pool.id = some observed := hobservation
  have hshows := poolFacts_shows hk hobserved hparse
  obtain ⟨k, hpool⟩ := Dict.mem_values.mp hpool
  have hkey : k = pool_id := (ha.pools k pool hpool).symm.trans (hshows.id.symm.trans hid)
  subst hkey
  exact ⟨pool, observed, hpool, hobserved, hshows⟩

-- What a selected profile passed

variable {rule : Rule} {estimate : Estimate} {p : ProfileRef}

/-- Nothing stands against the profile, by the rule it was selected under. -/
structure Passes (task : TaskSnapshot) (policy : PolicySnapshot) (capacity : CapacitySnapshot)
    (rule : Rule) (p : ProfileRef) (registered : RegisteredProfile) (profile : Routing.Profile)
    (account : AccountState) (estimate : Estimate) : Prop where
  bound : policy.resources.bound? p = some (registered, profile)
  enabled : registered.enabled = true
  at_account : capacity.account? profile.binding.account_id = some account
  estimated : capacity.estimate? p = some estimate
  fixed : Routing.accountReasons account profile.binding.account_id task = []
  live : liveAccountReasons account capacity.as_of (leadAccess task rule) = []
  vector : Routing.vectorReasons registered.quota_pool_refs estimate = []
  pools : ∀ pool_id ∈ registered.quota_pool_refs,
    (checkPool task policy capacity account profile.binding.account_id estimate
      (leadAccess task rule) true pool_id).reasons = []

theorem route_passes (h : evaluateRoute L task policy capacity = .ok report)
    (hp : report.selected_profile = some p) : ∃ effective rule registered profile account estimate,
      Opens L task policy effective rule ∧
        Passes task policy capacity rule p registered profile account estimate := by
  obtain ⟨effective, rule, ho, -, hreasons⟩ := Routing.route_selects h hp
  simp only [Routing.candidateReasons, Routing.staticReasons, append_eq_nil_iff] at hreasons
  obtain ⟨⟨⟨⟨-, hbound⟩, -⟩, hresources⟩, -⟩ := hreasons
  cases hfind : policy.resources.bound? p with
  | none => simp [hfind] at hbound
  | some found =>
    obtain ⟨registered, profile⟩ := found
    simp only [hfind, Routing.boundReasons, append_eq_nil_iff] at hbound
    obtain ⟨⟨⟨⟨⟨⟨hbinding, -⟩, -⟩, -⟩, -⟩, -⟩, -⟩ := hbound
    simp only [Routing.bindingReasons, append_eq_nil_iff, reasonIf_eq_nil, Bool.not_eq_false'] at hbinding
    obtain ⟨⟨⟨-, henabled⟩, -⟩, -⟩ := hbinding
    simp only [resourceReasons, hfind] at hresources
    cases haccount : capacity.account? profile.binding.account_id with
    | none => simp [haccount] at hresources
    | some account =>
      cases hestimate : capacity.estimate? p with
      | none => simp [haccount, hestimate] at hresources
      | some estimate =>
        simp only [haccount, hestimate, if_true, poolReasons, append_eq_nil_iff,
          flatMap_eq_nil_iff, mem_insertionSort] at hresources
        obtain ⟨⟨hfixed, hlive⟩, hvector, hpools⟩ := hresources
        refine ⟨effective, rule, registered, profile, account, estimate, ho, ?_⟩
        exact ⟨hfind, henabled, haccount, hestimate, hfixed, hlive, hvector, hpools⟩

theorem Passes.demanded (hpasses : Passes task policy capacity rule p registered profile account estimate)
    (hm : pool_id ∈ registered.quota_pool_refs) : ∃ demand, estimate.demands.get? pool_id = some demand := by
  have hvector := hpasses.vector
  simp only [Routing.vectorReasons, reasonIf_eq_nil, Bool.or_eq_false_iff, Bool.not_eq_false',
    Bool.and_eq_true, all_eq_true] at hvector
  exact Dict.mem_keys.mp (Dict.contains_iff.mp (hvector.2.1 pool_id hm))

theorem registered_captured (hcapture : captureRoutingFacts t account_ids now = .ok facts)
    (hserviced : Serviced t)
    (hbound : (capacitySnapshot facts resources).2.1.bound? p = some (registered, profile))
    (henabled : registered.enabled = true) (hsource : source ∈ relevantAccounts facts resources)
    (hid : source.id = profile.binding.account_id) : ∃ ledger, t.profiles.get? (p.id, p.revision) = some ledger ∧
      ledger.account_id = profile.binding.account_id ∧
      ∀ pool_id, pool_id ∈ ledger.pool_ids ↔ pool_id ∈ registered.quota_pool_refs := by
  obtain ⟨row, hfind, hrow⟩ := Option.bind_eq_some_iff.mp hbound
  obtain ⟨bound, hbound, heq⟩ := Option.map_eq_some_iff.mp hrow
  cases heq
  have hkey : registered.toProfileRef = p := by simpa using find?_some hfind
  obtain ⟨original, -, hregistered⟩ := List.mem_map.mp (mem_of_find?_eq_some hfind)
  subst hregistered
  simp only [Bool.and_eq_true, Bool.not_eq_true', any_eq_false] at henabled
  have hprofile : original.profile = some profile := hbound
  have hregisters : source.registers original = true := by
    by_contra hnot
    exact henabled.2 source hsource (by simp [AccountFacts.mismatches, hprofile, hid, hnot])
  simp only [AccountFacts.registers, Option.any_eq_true] at hregisters
  obtain ⟨ledger, hledger, hpools⟩ := hregisters
  have hmem := mem_of_find?_eq_some hledger
  rw [(capture_ok hcapture).2 source (mem_of_mem_filter hsource)] at hmem
  obtain ⟨hvalue, haccount⟩ := List.mem_filter.mp hmem
  obtain ⟨k, hget⟩ := Dict.mem_values.mp hvalue
  have hsame := find?_some hledger
  simp only [decide_eq_true_eq] at hsame
  have hk : k = (p.id, p.revision) := by
    rw [(hserviced.profiles k ledger hget).1, ← hkey, ← hsame]
  refine ⟨ledger, hk ▸ hget, ?_, sameKeys_iff.mp hpools⟩
  rw [← hid]
  simpa using haccount

/-- What routing was satisfied with at a pool whose quota is not known as a number. -/
structure Judged (task : TaskSnapshot) (account : AccountState) (found : PoolState)
    (demand : Routing.Demand) (as_of : Rat) (lead : Bool) : Prop where
  window : demand.window_id = found.window_id
  available : ∀ left, found.available account.policy lead = some left → (demand.amount.units : Int) ≤ left
  current : found.stale account.policy as_of = false
  unofficial : found.kind = .service → account.policy.require_official_observation = false
  mode : ∃ mode, (account.policy.conservative_mode.filter (·.enabled)).bind (·.complete?) = some mode ∧
    account.active_attempts <
      (mode.max_local_active_attempts : Int) - Routing.reservedSlots account.policy lead ∧
    task.duration_seconds ≤ mode.max_attempt_duration_seconds ∧
    as_of - found.observed_at ≤ mode.observation_max_age_seconds

theorem unknownReasons_nil (h : Routing.unknownReasons account task found as_of lead = []) :
    (found.kind = .service → account.policy.require_official_observation = false) ∧
      ∃ mode, (account.policy.conservative_mode.filter (·.enabled)).bind (·.complete?) = some mode ∧
        account.active_attempts <
          (mode.max_local_active_attempts : Int) - Routing.reservedSlots account.policy lead ∧
        task.duration_seconds ≤ mode.max_attempt_duration_seconds ∧
        as_of - found.observed_at ≤ mode.observation_max_age_seconds := by
  simp only [Routing.unknownReasons] at h
  split at h
  · cases h
  case h_2 mode hmode =>
    split at h
    · cases h
    case isFalse hofficial =>
      simp only [reasonIf_eq_nil, Bool.or_eq_false_iff, decide_eq_false_iff_not, not_le, not_lt] at h
      obtain ⟨⟨⟨hslots, hduration⟩, -⟩, hage⟩ := h
      refine ⟨fun hservice => ?_, mode, hmode, hslots, hduration, hage⟩
      simpa [hservice] using hofficial

theorem checkPool_judged
    (h : (checkPool task policy capacity account account_id estimate lead true pool_id).reasons = [])
    (hdemand : estimate.demands.get? pool_id = some demand) : ∃ found, capacity.pool? pool_id = some found ∧
      (found.confidence = .unknown → Judged task account found demand capacity.as_of lead) := by
  cases hfound : capacity.pool? pool_id with
  | none => simp [checkPool, hfound] at h
  | some found =>
    refine ⟨found, rfl, fun hconfidence => ?_⟩
    have hunknown : found.unknown estimate = true := by simp [PoolState.unknown, hconfidence]
    simp only [checkPool, hfound, hdemand, if_true, Routing.demandReasons, quotaReasons, hunknown,
      append_eq_nil_iff, reasonIf_eq_nil, Bool.or_eq_false_iff, decide_eq_false_iff_not,
      not_not] at h
    obtain ⟨⟨-, ⟨-, hwindow⟩, -⟩, ⟨⟨⟨-, havailable⟩, hstale⟩, -⟩, hreasons⟩ := h
    obtain ⟨hofficial, hmode⟩ := unknownReasons_nil hreasons
    refine ⟨hwindow, fun left hleft => ?_, hstale, hofficial, hmode⟩
    simpa [hleft] using havailable

-- What the ledger asks for

variable {ledger : Profile} {a : Assessment}

/-- The request is for the demand of the estimate, under what it was routed under. -/
structure Asks (request : AdmissionRequest) (task : TaskSnapshot) (rule : Rule)
    (account : AccountState) (estimate : Estimate) : Prop where
  lead : request.lead = leadAccess task rule
  duration : request.duration_seconds = task.duration_seconds
  demand : ∀ pool_id, request.demand.get? pool_id = (estimate.demands.get? pool_id).map Routing.Demand.amount
  expected : ∃ expected, request.expected_capacity = some expected ∧
    expected.policy_revision = account.policy_revision ∧
    ∀ pool_id, expected.pool_windows.get? pool_id = (estimate.demands.get? pool_id).map Routing.Demand.window_id

theorem demands_map {f : Routing.Demand → α} :
    (ofList (estimate.demand.map fun d => (d.pool_id, f d))).get? pool_id =
      (estimate.demands.get? pool_id).map f := by
  rw [Estimate.demands, ← get?_ofList_map, map_map]
  rfl

theorem newRequest_asks (htask : a.task = task)
    (hexpected : expectation.expected_capacity = expectedCapacity task rule account estimate) :
    Asks (newRequest L digest a p expectation estimate) task rule account estimate := by
  subst htask
  refine ⟨?_, rfl, fun _ => demands_map, expectation.expected_capacity, rfl, ?_, ?_⟩
  · simp only [AdmissionRequest.lead, newRequest, hexpected, expectedCapacity, leadAccess]
    cases a.task.role <;> simp [roleOf]
  · rw [hexpected]
    rfl
  · rw [hexpected]
    exact fun _ => demands_map

theorem accountReasons_clear (hreads : Reads t now account_id account)
    (hasks : Asks request task rule account estimate) (hledger : ledger.account_id = account_id)
    (hheld : held.length = account.active_attempts) (hfixed : Routing.accountReasons account account_id task = [])
    (hlive : liveAccountReasons account now (leadAccess task rule) = []) :
    accountReasons t request ledger account.policy (t.policyRevision account_id) held now = [] := by
  obtain ⟨expected, hexpected, hrevision, -⟩ := hasks.expected
  simp only [Routing.accountReasons, append_eq_nil_iff, reasonIf_eq_nil,
    decide_eq_false_iff_not, not_lt] at hfixed
  simp only [liveAccountReasons, append_eq_nil_iff, reasonIf_eq_nil, decide_eq_false_iff_not,
    not_le] at hlive
  obtain ⟨⟨hslots, hcooldown⟩, -⟩ := hlive
  simp only [accountReasons, append_eq_nil_iff, reasonIf_eq_nil,
    decide_eq_false_iff_not, not_lt, not_le, hexpected, Option.any_some, hasks.lead, hasks.duration,
    any_eq_false, decide_eq_true_eq, hledger, hheld]
  refine ⟨⟨⟨?_, ?_⟩, ?_⟩, ?_⟩
  · simp [hrevision, hreads.revision]
  · exact hslots
  · exact le_trans hfixed.2 (min_le_left _ _)
  · exact hreads.cooldown hcooldown

theorem Judged.fresh (h : Judged task account found demand now lead) (hshows : Shows t now pool observed found) :
    observed.stale account.policy now = false := by
  have hcurrent := h.current
  simp only [PoolState.stale, hshows.observed_at, hshows.reset_at, Bool.or_eq_false_iff,
    decide_eq_false_iff_not, not_lt] at hcurrent
  obtain ⟨⟨hpast, hage⟩, hreset⟩ := hcurrent
  simp only [Observation.stale, Bool.or_eq_false_iff, decide_eq_false_iff_not, not_lt]
  exact ⟨⟨sub_nonneg.mp hpast, hage⟩, hreset⟩

section
variable (h : Judged task account found demand now (leadAccess task rule))
  (hshows : Shows t now pool observed found) (hasks : Asks request task rule account estimate)
include h hshows hasks

theorem Judged.conserved (hofficial : account.policy.require_official_observation = false)
    (hheld : held.length = account.active_attempts) :
    conservative request account.policy observed held now = [] := by
  obtain ⟨mode, hmode, hslots, hduration, hage⟩ := h.mode
  obtain ⟨stated, hstated, hcomplete⟩ := Option.bind_eq_some_iff.mp hmode
  have hfilter : account.policy.conservative_mode.filter ConservativeMode.enabled =
      some stated := hstated
  rw [hshows.observed_at] at hage
  simp only [conservative, hofficial, hfilter, hcomplete, hasks.lead, hasks.duration, hheld,
    Bool.false_eq_true, if_false, append_eq_nil_iff, reasonIf_eq_nil, decide_eq_false_iff_not,
    not_lt, not_le]
  refine ⟨⟨?_, hduration⟩, hage⟩
  cases hlead : leadAccess task rule <;> simpa [hlead, Routing.reservedSlots] using hslots

theorem Judged.enough (hdemand : estimate.demands.get? pool.id = some demand) (hamount : observed.numericRemaining = some amount) :
    quantityOf request.demand pool.id ≤ t.quantityFor request account.policy pool observed amount
      ((expire pool.account_id now t).held pool.account_id) := by
  have hremaining := hshows.remaining
  rw [hamount, Option.map_eq_some_iff] at hremaining
  obtain ⟨remaining, hreported, rfl⟩ := hremaining
  have hleft := h.available _ (by rw [PoolState.available, hreported, Option.map_some])
  simp only [hshows.uncovered, hshows.future, hshows.id, Routing.roleReserve] at hleft
  simp only [quantityOf, hasks.demand, hdemand, Tables.quantityFor, Tables.quantity, hasks.lead,
    Option.map_some, Option.getD_some]
  cases hlead : leadAccess task rule <;> simp [hlead, quantityOf] at hleft ⊢ <;> omega

end

theorem windowKept_judged
    (h : Judged task account found demand now lead) (hshows : Shows t now pool observed found)
    (hasks : Asks request task rule account estimate) (hdemand : estimate.demands.get? pool.id = some demand) :
    windowKept request (some observed) pool.id = true := by
  obtain ⟨expected, hexpected, -, hwindows⟩ := hasks.expected
  simp [windowKept, hexpected, hwindows, hdemand, h.window, hshows.window]

theorem evaluatePool_judged (hreads : Reads t now pool.account_id account) (hserviced : Serviced t)
    (hpool : t.pools.get? k = some pool) (hobserved : t.observation pool.id = some observed)
    (hshows : Shows t now pool observed found) (hasks : Asks request task rule account estimate)
    (hdemand : estimate.demands.get? pool.id = some demand)
    (hjudged : Judged task account found demand now (leadAccess task rule))
    (hofficial : account.policy.require_official_observation = false)
    (hexhaustion : account.exhaustion_observation_required = false) :
    (evaluatePool t request account.policy (t.failuresOf pool.account_id)
      ((expire pool.account_id now t).held pool.account_id) now pool).reasons = [] := by
  have hunexhausted : exhausted t pool observed (t.failuresOf pool.account_id) = false :=
    hreads.unexhausted hexhaustion k pool hpool rfl observed hobserved
  refine evaluatePool_clear.mpr ⟨?_, observed, hobserved, ?_⟩
  · rw [hobserved]
    exact windowKept_judged hjudged hshows hasks hdemand
  · refine observedPool_clear.mpr ⟨hjudged.fresh hshows, ?_, ?_, ?_⟩
    · simp [hofficial]
    · simp [hunexhausted, hserviced.unexhausted hobserved hunexhausted]
    · cases hamount : observed.numericRemaining with
      | none => exact hjudged.conserved hshows hasks hofficial hreads.held.symm
      | some amount => exact hjudged.enough hshows hasks hdemand hamount

-- The assessment

structure Assessed (L : Routing.Library) (task : TaskSnapshot) (facts : CapacityFacts)
    (resources : ResourceCatalog) (a : Assessment) : Prop where
  of_task : a.task = task
  route : evaluateRoute L task a.policy a.capacity = .ok a.route
  catalog : a.policy.resources = (capacitySnapshot facts resources).2.1
  as_of : a.capacity.as_of = facts.captured_at
  accounts : a.capacity.accounts = (capacitySnapshot facts resources).1.accounts
  pools : a.capacity.pools = (capacitySnapshot facts resources).1.pools
  expectations : a.admission_expectations = a.capacity.estimates.filterMap (expectationOf task
    (Routing.selectCompiledRule L task.toTaskClassification a.policy.rulebook
      a.policy.risk_policy).rule a.policy.resources a.capacity)

theorem assess_ok (h : assess L resolve run_id approval task policy facts = .ok a) :
    Assessed L task facts policy.resources a := by
  simp only [assess, bind_ok, pure_ok] at h
  obtain ⟨route, hroute, rfl⟩ := h
  exact ⟨rfl, hroute, rfl, rfl, rfl, rfl, rfl⟩

theorem route_estimates (h : evaluateRoute L task policy capacity = .ok report) :
    (capacity.estimates.map Estimate.profile).Nodup := by
  have hvalid := (Routing.evaluate_ok.mp h).1.validated
  simp only [Routing.validate, Routing.validateCapacity, Routing.unique, bind_ok, ensure_ok,
    decide_eq_true_eq] at hvalid
  obtain ⟨-, -, -, ⟨-, -, -, -, -, hestimates, -⟩, -⟩ := hvalid
  exact hestimates

theorem find_expectation {f : Estimate → Option Expectation} {estimates : List Estimate}
    (hunique : (estimates.map Estimate.profile).Nodup) (hf : ∀ e x, f e = some x → x.profile = e.profile)
    (hestimate : estimates.find? (·.profile = p) = some estimate) (hexpectation : f estimate = some expectation) :
    (estimates.filterMap f).find? (·.profile = p) = some expectation := by
  have hmem := mem_of_find?_eq_some hestimate
  have hprofile : estimate.profile = p := by simpa using find?_some hestimate
  have hfind : ((estimates.filterMap f).find? (·.profile = p)).isSome = true :=
    find?_isSome.mpr ⟨expectation, List.mem_filterMap.mpr ⟨estimate, hmem, hexpectation⟩, by
      simp [hf _ _ hexpectation, hprofile]⟩
  obtain ⟨other, hother⟩ := Option.isSome_iff_exists.mp hfind
  have hsame : other.profile = p := by simpa using find?_some hother
  obtain ⟨e, he, hof⟩ := List.mem_filterMap.mp (mem_of_find?_eq_some hother)
  have heq : e = estimate := inj_on_of_nodup_map hunique he hmem
    ((hf _ _ hof).symm.trans (hsame.trans hprofile.symm))
  rw [hother, ← hof, heq, hexpectation]

theorem request_asks {digest : Rulebook → String}
    (ha : Assessed L task facts resources a) (hp : a.route.selected_profile = some p)
    (hrule : (Routing.selectCompiledRule L task.toTaskClassification a.policy.rulebook
      a.policy.risk_policy).rule = some rule)
    (hpasses : Passes task a.policy a.capacity rule p registered profile account estimate) :
    ∃ request, requestOf L digest a = .ok (some request) ∧ request.profile_id = p.id ∧
      request.profile_revision = p.revision ∧ Asks request task rule account estimate := by
  have hprofile : estimate.profile = p := by simpa using find?_some hpasses.estimated
  have hexpectation : expectationOf task (some rule) a.policy.resources a.capacity estimate =
      some ⟨estimate.profile, expectedCapacity task rule account estimate⟩ := by
    simp [expectationOf, hprofile, hpasses.bound, hpasses.at_account]
  have hfound : a.admission_expectations.find? (·.profile = p) =
      some ⟨estimate.profile, expectedCapacity task rule account estimate⟩ := by
    rw [ha.expectations, hrule]
    refine find_expectation (route_estimates ha.route) (fun e x hx => ?_) hpasses.estimated
      hexpectation
    simp only [expectationOf, Option.bind_eq_bind, Option.bind_eq_some_iff, Option.pure_def,
      Option.some.injEq, Prod.exists] at hx
    obtain ⟨_, _, _, _, _, _, _, rfl⟩ := hx
    rfl
  refine ⟨newRequest L digest a p ⟨estimate.profile, expectedCapacity task rule account estimate⟩
    estimate, ?_, rfl, rfl, newRequest_asks ha.of_task rfl⟩
  simp [requestOf, hp, hfound, hpasses.estimated, need, pure, Except.pure, bind, Except.bind]

theorem pool_passed (hk : Keyed t) (hob : Accounted t)
    (hcapture : captureRoutingFacts t account_ids now = .ok facts) (ha : Assessed L task facts resources a)
    (hpasses : Passes task a.policy a.capacity rule p registered profile account estimate)
    (hm : pool_id ∈ registered.quota_pool_refs) :
    ∃ pool observed found demand, t.pools.get? pool_id = some pool ∧ pool.id = pool_id ∧
      t.observation pool.id = some observed ∧ Shows t now pool observed found ∧
      estimate.demands.get? pool_id = some demand ∧
      Judged task account found demand now (leadAccess task rule) := by
  obtain ⟨demand, hdemand⟩ := hpasses.demanded hm
  obtain ⟨found, hfound, hjudged⟩ := checkPool_judged (hpasses.pools pool_id hm) hdemand
  have hsnapshot : (capacitySnapshot facts resources).1.pool? pool_id = some found := by
    rw [CapacitySnapshot.pool?, ← ha.pools]
    exact hfound
  obtain ⟨pool, observed, hpool, hobserved, hshows⟩ := pool_captured hk hob hcapture hsnapshot
  have hnow : a.capacity.as_of = now := ha.as_of.trans (capture_ok hcapture).1
  exact ⟨pool, observed, found, demand, hpool, hob.pools _ _ hpool, hobserved, hshows, hdemand,
    hnow ▸ hjudged hshows.confidence⟩

theorem sameKeys_demand (hpasses : Passes task policy capacity rule p registered profile account
    estimate) (hpools : ∀ pool_id, pool_id ∈ ledger.pool_ids ↔ pool_id ∈ registered.quota_pool_refs) {d : Dict String α}
    (hd : ∀ pool_id, d.get? pool_id = (estimate.demands.get? pool_id).map f) :
    sameKeys d.keys ledger.pool_ids = true := by
  have hvector := hpasses.vector
  simp only [Routing.vectorReasons, reasonIf_eq_nil, Bool.or_eq_false_iff, Bool.not_eq_false',
    Bool.and_eq_true, all_eq_true, decide_eq_true_eq] at hvector
  refine sameKeys_iff.mpr fun pool_id => ?_
  have hkeys : pool_id ∈ d.keys ↔ pool_id ∈ estimate.demands.keys := by
    simp [Dict.mem_keys, hd]
  rw [hkeys, hpools]
  exact ⟨hvector.2.2 pool_id, fun hm => Dict.contains_iff.mp (hvector.2.1 pool_id hm)⟩

theorem ledger_clear (hk : Keyed t) (hob : Accounted t) (hserviced : Serviced t)
    (hcapture : captureRoutingFacts t account_ids now = .ok facts) (ha : Assessed L task facts resources a)
    (hpasses : Passes task a.policy a.capacity rule p registered profile account estimate)
    (hasks : Asks request task rule account estimate) (hledger : t.profiles.get? key = some ledger)
    (haccount : ledger.account_id = profile.binding.account_id)
    (hpools : ∀ pool_id, pool_id ∈ ledger.pool_ids ↔ pool_id ∈ registered.quota_pool_refs)
    (hreads : Reads t now ledger.account_id account) :
    ∃ pools, Clear t request ledger account.policy (t.policyRevision ledger.account_id)
      ((expire ledger.account_id now t).held ledger.account_id) now pools := by
  have hpassed := fun pool_id hm => pool_passed hk hob hcapture ha hpasses
    ((hpools pool_id).mp hm)
  have hlive := hpasses.live
  rw [ha.as_of, (capture_ok hcapture).1] at hlive
  obtain ⟨expected, hexpected, -, hwindows⟩ := hasks.expected
  -- Official observations cannot be required: the profile has a pool of its service, and
  -- routing authorizes no unknown quota of a service that has to be observed officially.
  have hofficial : account.policy.require_official_observation = false := by
    obtain ⟨-, pool_id, hm, service, hservice, hkind⟩ := hserviced.profiles _ _ hledger
    obtain ⟨pool, _, _, _, hpool, -, -, hshows, -, hjudged⟩ := hpassed pool_id hm
    cases hservice.symm.trans hpool
    exact hjudged.unofficial (hshows.kind.trans hkind)
  have hknown : Check.each t.pool (ledger.pool_ids.insertionSort (· ≤ ·)) =
      .ok ((ledger.pool_ids.insertionSort (· ≤ ·)).filterMap t.pools.get?) := by
    refine each_need fun pool_id hm => ?_
    obtain ⟨pool, _, _, _, hpool, -⟩ := hpassed pool_id (by simpa using hm)
    exact ⟨pool, hpool⟩
  refine ⟨_, sameKeys_demand hpasses hpools hasks.demand, ?_, hknown, ?_, fun pool hpool => ?_⟩
  · simp [hexpected, sameKeys_demand hpasses hpools hwindows]
  · have hfixed := hpasses.fixed
    rw [← haccount] at hfixed
    exact accountReasons_clear hreads hasks rfl hreads.held.symm hfixed hlive
  · obtain ⟨pool_id, hm, hget⟩ := List.mem_filterMap.mp hpool
    have hm : pool_id ∈ ledger.pool_ids := by simpa using hm
    obtain ⟨pool', observed, found, demand, hpool', rfl, hobserved, hshows, hdemand, hjudged⟩ :=
      hpassed pool_id hm
    cases hget.symm.trans hpool'
    obtain ⟨of, hof, hsame⟩ := hob.profiles _ _ hledger _ hm
    cases hget.symm.trans hof
    simp only [liveAccountReasons, append_eq_nil_iff, reasonIf_eq_nil] at hlive
    rw [← hsame] at hreads ⊢
    exact evaluatePool_judged hreads hserviced hget hobserved hshows hasks hdemand hjudged
      hofficial hlive.2

/-- Whatever the ledger came to, a profile that routing selects over its facts is one that
the ledger has nothing against at the instant the facts were captured at: the request that is
built of the assessment is evaluated without a reason. -/
theorem selected_admissible {C : Library} {s : State} {resolve : EstimateStore}
    {approval : Json} {a : Assessment} (digest : Rulebook → String) (h : (system C).Reach System.free s)
    (hcapture : captureRoutingFacts s.tables account_ids now = .ok facts)
    (hassess : assess L resolve run_id approval task policy facts = .ok a)
    (hp : a.route.selected_profile = some p) : ∃ request ledger current evaluation,
      requestOf L digest a = .ok (some request) ∧
      (request.profile_id, request.profile_revision) = (p.id, p.revision) ∧
      s.tables.profiles.get? (p.id, p.revision) = some ledger ∧
      s.tables.policy ledger.account_id = some current ∧
      evaluate (expire ledger.account_id now s.tables) request ledger current
        (s.tables.policyRevision ledger.account_id)
        ((expire ledger.account_id now s.tables).held ledger.account_id) now = .ok evaluation ∧
      evaluation.reasons = [] := by
  have hk : Keyed s.tables := reach_keyed h
  have hserviced : Serviced s.tables := reach_serviced h
  have ha := assess_ok hassess
  obtain ⟨effective, rule, registered, profile, account, estimate, ho, hpasses⟩ := route_passes ha.route hp
  obtain ⟨request, hrequest, hid, hrevision, hasks⟩ := request_asks ha hp ho.by_rule hpasses
  have haccount : (capacitySnapshot facts policy.resources).1.account? profile.binding.account_id =
      some account := by
    rw [CapacitySnapshot.account?, ← ha.accounts]
    exact hpasses.at_account
  obtain ⟨source, hsource, hsame, hreads⟩ := account_captured hk hcapture haccount
  obtain ⟨ledger, hledger, hledger_account, hpools⟩ := registered_captured hcapture hserviced
    (ha.catalog ▸ hpasses.bound) hpasses.enabled hsource hsame
  rw [← hledger_account] at hreads
  obtain ⟨pools, hclear⟩ := ledger_clear hk (reach_accounted h) hserviced hcapture ha hpasses hasks
    hledger hledger_account hpools hreads
  obtain ⟨evaluation, hevaluation, hreasons⟩ := hclear.evaluate
  refine ⟨request, ledger, account.policy, evaluation, hrequest, by rw [hid, hrevision], hledger,
    hreads.policy, evaluate_expire.trans hevaluation, hreasons⟩

-- A sample

namespace Sample

/-- A mode that bounds everything allows a quota that is not known. -/
def ledgerPolicy : Policy :=
  { Routing.Sample.capacityPolicy with conservative_mode := some ⟨true, some 2, some 9, some 9, some 1⟩ }

def observation : Observation :=
  { sampleObservation with pool_id := "u", observed_at := 0 }

def actions : List Action := [
  ⟨"1", .registerPool ⟨"u", "a", .service, .requests, .fixed⟩, sampleWorld [] ""⟩,
  ⟨"2", .registerProfile ⟨"p", 1, "a", ["u"], by simp, by simp⟩, sampleWorld [] ""⟩,
  ⟨"3", .activatePolicy ledgerPolicy 0, sampleWorld [] ""⟩,
  ⟨"4", .observe observation, sampleWorld [0] ""⟩]

def state : State := (system sampleLibrary).run State.empty actions

def resolve : EstimateStore := fun _ windows _ =>
  some ⟨windows.map fun w => ⟨w.pool_id, w.unit, w.window_id, ⟨"1", 1000000⟩⟩, .unknown, none, none⟩

def captured : CapacityFacts := ⟨1, (knownAccounts state.tables).map (accountFacts state.tables 1)⟩

def assessment : Except Routing.RoutingError Assessment :=
  assess Routing.Sample.library resolve "n" (.str "z") Routing.Sample.task Routing.Sample.policy captured

end Sample

theorem selected_admissible_sample : ∃ a request ledger current evaluation, Sample.assessment = .ok a ∧
    requestOf Routing.Sample.library (fun _ => "b") a = .ok (some request) ∧
    evaluate (expire ledger.account_id 1 Sample.state.tables) request ledger current
      (Sample.state.tables.policyRevision ledger.account_id)
      ((expire ledger.account_id 1 Sample.state.tables).held ledger.account_id) 1 = .ok evaluation ∧
    evaluation.reasons = [] := by
  have hreach : (system sampleLibrary).Reach System.free Sample.state :=
    ⟨_, rfl, .of_free_run⟩
  have hselected : Sample.assessment.toOption.map (·.route.selected_profile) =
      some (some (⟨"p", 1⟩ : ProfileRef)) := by decide +kernel
  obtain ⟨a, ha, hp⟩ := ok_of_map hselected
  obtain ⟨request, ledger, current, evaluation, hrequest, -, -, -, hevaluation, hreasons⟩ :=
    selected_admissible (fun _ => "b") hreach (rfl : captureRoutingFacts Sample.state.tables none 1 =
      .ok Sample.captured) ha hp
  exact ⟨a, request, ledger, current, evaluation, ha, hrequest, hevaluation, hreasons⟩

end Karajan.Assessing
