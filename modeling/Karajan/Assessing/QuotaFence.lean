import Karajan.Assessing.Admissible

/-!
# The quota fence of a report

A route that was selected stands, as far as its quota goes, while every
observation it was judged by does. The fence is built from the report alone and
accepts exactly these instants, and never one before an instant it accepted.
-/

namespace Karajan.Assessing

open Option Routing
open Capacity (Policy TemporalFence all_min? reasonIf_eq_nil)
open Check

inductive FenceError
  | invalid
  | timeRegressed
  | expired

/-- How long the observation of an evaluation may be relied on: by its ages, and until its reset. -/
def evaluationLimits (policy : Policy) (evaluation : PoolEvaluation) :
    Except FenceError (List Rat × Option Rat) := do
  let quota ← need evaluation.quota .invalid
  let observation := quota.observation
  let current := observation.observed_at + policy.observation_max_age_seconds
  if quota.unknown_mode then
    let mode ← need policy.conservative_mode .invalid
    let age ← need mode.observation_max_age_seconds .invalid
    return ([current, observation.observed_at + age], observation.reset_at)
  return ([current], observation.reset_at)

def captureQuotaTemporalFence (report : Report) (capacity : CapacitySnapshot) : Except FenceError TemporalFence := do
  let selected ← need report.selected_profile .invalid
  let candidate ← need (report.candidates.find? fun row => row.profile = selected && row.eligible) .invalid
  let bound ← need candidate.capacity_policy .invalid
  let account ← need (capacity.account? bound.account_id) .invalid
  let limits ← each (evaluationLimits account.policy) candidate.pool_evaluations
  let inclusive_until ← need (limits.flatMap Prod.fst).min? .invalid
  return ⟨capacity.as_of, inclusive_until, (limits.filterMap Prod.snd).min?⟩

def assertCurrent (fence : TemporalFence) (as_of : Rat) : Except FenceError TemporalFence := do
  ensure (fence.floor ≤ as_of) .timeRegressed
  ensure (fence.current as_of) .expired
  return fence.through as_of

variable {L : Library} {task : TaskSnapshot} {policy : PolicySnapshot}
  {capacity : CapacitySnapshot} {rule : Rule} {lead : Bool} {now : Rat}

-- Time alone

/-- The observation of the pool may be relied on at the instant. -/
def Timely (policy : Policy) (estimate : Estimate) (pool : PoolState) (now : Rat) : Prop :=
  pool.stale policy now = false ∧
    (pool.unknown estimate = true → ∀ age, policy.conservativeAge = some age → now - pool.observed_at ≤ age)

theorem unknownReasons_later (h : unknownReasons account task found capacity.as_of lead = [])
    (hstale : found.stale account.policy now = false) : ∃ age, account.policy.conservativeAge = some age ∧
      (unknownReasons account task found now lead = [] ↔ now - found.observed_at ≤ age) := by
  obtain ⟨hofficial, mode, hmode, hslots, hduration, -⟩ := unknownReasons_nil h
  obtain ⟨stated, hstated, hcomplete⟩ := bind_eq_some_iff.mp hmode
  have hage : account.policy.conservativeAge = some mode.observation_max_age_seconds := by
    rw [Policy.conservativeAge, eq_some_of_filter_eq_some hstated]
    exact Capacity.complete?_eq_some hcomplete
  refine ⟨_, hage, ?_⟩
  have hyoung : ¬ now - found.observed_at < 0 := by
    simp only [PoolState.stale, Bool.or_eq_false_iff, decide_eq_false_iff_not] at hstale
    exact hstale.1.1
  have hnot : (account.policy.require_official_observation && decide (found.kind = .service)) = false := by
    by_cases hservice : found.kind = .service <;> simp [hservice, hofficial]
  simp [unknownReasons, hmode, hnot, Int.not_le.mpr hslots, Nat.not_lt.mpr hduration, hyoung]

theorem checkPool_later
    (h : (checkPool task policy capacity account account_id estimate lead true pool_id).reasons = [])
    (hdemand : estimate.demands.get? pool_id = some demand) : ∃ found evaluation, found.stale account.policy capacity.as_of = false ∧
      (checkPool task policy capacity account account_id estimate lead true pool_id).evaluation = some evaluation ∧
      evaluation.quota = some (evaluateQuota account estimate found demand.amount.units lead) ∧
      (found.unknown estimate = true → account.policy.conservativeAge.isSome = true) ∧
      ∀ now, (checkPool task policy { capacity with as_of := now } account account_id estimate lead true
        pool_id).reasons = [] ↔ Timely account.policy estimate found now := by
  cases hfound : capacity.pool? pool_id with
  | none => simp [checkPool, hfound] at h
  | some found =>
    have hlater : ∀ now, CapacitySnapshot.pool? { capacity with as_of := now } pool_id = some found := fun _ => hfound
    simp only [checkPool, hfound, hdemand, if_true, List.append_eq_nil_iff, quotaReasons, reasonIf_eq_nil] at h
    obtain ⟨⟨hbound, hdemanded⟩, ⟨⟨⟨hlimit, hquota⟩, hstale⟩, hofficial⟩, hunknown⟩ := h
    refine ⟨found, _, hstale, by simp [checkPool, hfound, hdemand]; rfl, rfl, fun hmode => ?_, fun now => ?_⟩
    · rw [if_pos hmode] at hunknown
      obtain ⟨age, hage, -⟩ := unknownReasons_later hunknown hstale
      simp [hage]
    · simp only [checkPool, hlater, hdemand, if_true, List.append_eq_nil_iff, quotaReasons, reasonIf_eq_nil,
        hbound, hdemanded, hlimit, hquota, hofficial, true_and, and_true, Timely]
      refine and_congr_right fun hnow => ?_
      by_cases hmode : found.unknown estimate = true
      · rw [if_pos hmode] at hunknown ⊢
        obtain ⟨age, hage, hiff⟩ := unknownReasons_later hunknown hnow
        simp [hiff, hmode, hage]
      · simp [hmode]

-- Limits

def limits (policy : Policy) (evaluation : PoolEvaluation) : List Rat × Option Rat :=
  match evaluation.quota with
  | none => ([], none)
  | some quota =>
    ((quota.observation.observed_at + policy.observation_max_age_seconds) ::
      (if quota.unknown_mode then policy.conservativeAge.toList.map fun age => quota.observation.observed_at + age else []),
      quota.observation.reset_at)

theorem limits_timely (hquota : evaluation.quota = some (evaluateQuota account estimate found amount lead))
    (hsince : found.stale account.policy since = false) (hnow : since ≤ now) :
    (∀ b ∈ (limits account.policy evaluation).1, now ≤ b) ∧ (∀ b ∈ (limits account.policy evaluation).2, now < b) ↔
      Timely account.policy estimate found now := by
  simp only [PoolState.stale, Bool.or_eq_false_iff, decide_eq_false_iff_not, not_lt] at hsince
  have hyoung : 0 ≤ now - found.observed_at := hsince.1.1.trans (sub_le_sub_right hnow _)
  simp only [limits, hquota, evaluateQuota, Timely, PoolState.stale, Bool.or_eq_false_iff, decide_eq_false_iff_not,
    not_lt, hyoung, true_and, sub_le_iff_le_add', List.forall_mem_cons, any_eq_false, not_le, mem_def]
  by_cases hmode : found.unknown estimate = true
  · simp [hmode, and_right_comm]
  · simp [hmode]

theorem evaluationLimits_ok (hquota : evaluation.quota = some (evaluateQuota account estimate found amount lead))
    (hage : found.unknown estimate = true → account.policy.conservativeAge.isSome = true) :
    evaluationLimits account.policy evaluation = .ok (limits account.policy evaluation) := by
  by_cases hmode : found.unknown estimate = true
  · obtain ⟨age, hage⟩ := isSome_iff_exists.mp (hage hmode)
    obtain ⟨mode, hstated, hage⟩ := bind_eq_some_iff.mp hage
    simp [evaluationLimits, limits, hquota, evaluateQuota, hmode, hstated, hage, need, Policy.conservativeAge]
  · simp [evaluationLimits, limits, hquota, evaluateQuota, hmode, need]
    rfl

-- The report

variable (L task policy capacity) in
theorem checkCash_rows (row : Candidate) : (checkCash L row task policy capacity).capacity_policy =
      row.capacity_policy ∧
    (checkCash L row task policy capacity).pool_evaluations = row.pool_evaluations := by
  unfold checkCash
  grind [Candidate.refuse]

/-- The evaluations of the pools of the profile, in their order. -/
def evaluations (task : TaskSnapshot) (policy : PolicySnapshot) (capacity : CapacitySnapshot) (account : AccountState)
    (account_id : String) (estimate : Estimate) (lead : Bool) (pool_ids : List String) : List PoolEvaluation :=
  ((pool_ids.insertionSort (· ≤ ·)).map (checkPool task policy capacity account account_id estimate lead true)).filterMap
    PoolCheck.evaluation

theorem selected_candidate (h : evaluateRoute L task policy capacity = .ok report)
    (hp : report.selected_profile = some p) (ho : Opens L task policy effective rule)
    (hpasses : Passes task policy capacity rule p registered profile account estimate) :
    ∃ row, report.candidates.find? (fun row => row.profile = p && row.eligible) = some row ∧
      row.capacity_policy = some ⟨profile.binding.account_id, account.policy_revision, account.current_policy_revision⟩ ∧
      row.pool_evaluations = evaluations task policy capacity account profile.binding.account_id estimate
        (leadAccess task rule) registered.quota_pool_refs := by
  obtain ⟨c, hc, hprofile, heligible⟩ := (route_eligible h).mpr (route_selects h hp)
  cases hfind : report.candidates.find? (fun row => row.profile = p && row.eligible) with
  | none => simpa [hprofile, heligible] using List.find?_eq_none.mp hfind c hc
  | some row =>
    obtain ⟨key, -, rfl⟩ := (route_candidate h ho).mp (List.mem_of_find?_eq_some hfind)
    have hkey := List.find?_some hfind
    simp only [rankedCandidate_profile, checkedCandidate_profile, Bool.and_eq_true,
      decide_eq_true_eq] at hkey
    obtain ⟨rfl, -⟩ := hkey
    have hrows := checkCash_rows L task policy capacity (checkResources
      (memberCandidate L task policy policy.rulebook capacity.as_of rule effective
        (stageGroups task rule) key) task policy capacity rule true)
    refine ⟨_, rfl, hrows.1.trans ?_, hrows.2.trans ?_⟩ <;>
      simp [checkResources, hpasses.bound, hpasses.at_account, hpasses.estimated, checkDemand,
        Candidate.refuse, evaluations]

theorem captured_fence (hp : report.selected_profile = some p)
    (hrow : report.candidates.find? (fun row => row.profile = p && row.eligible) = some row)
    (hbound : row.capacity_policy = some bound) (haccount : capacity.account? bound.account_id = some account)
    (hlimits : ∀ e ∈ row.pool_evaluations, evaluationLimits account.policy e = .ok (limits account.policy e))
    (hsome : ∃ e ∈ row.pool_evaluations, (limits account.policy e).1 ≠ []) :
    ∃ fence, captureQuotaTemporalFence report capacity = .ok fence ∧ ∀ now, fence.current now = true ↔
      capacity.as_of ≤ now ∧ ∀ e ∈ row.pool_evaluations,
        (∀ b ∈ (limits account.policy e).1, now ≤ b) ∧ ∀ b ∈ (limits account.policy e).2, now < b := by
  obtain ⟨e, he, hne⟩ := hsome
  obtain ⟨b, hb⟩ := List.exists_mem_of_ne_nil _ hne
  obtain ⟨least, hleast⟩ := isSome_iff_exists.mp (List.isSome_min?_of_mem
    (List.mem_flatMap.mpr ⟨_, List.mem_map_of_mem (f := limits account.policy) he, hb⟩))
  refine ⟨⟨capacity.as_of, least, ((row.pool_evaluations.map (limits account.policy)).filterMap Prod.snd).min?⟩,
    ?_, fun now => ?_⟩
  · simp [captureQuotaTemporalFence, hp, hrow, hbound, haccount, each_map hlimits, hleast, need]
  · simp only [TemporalFence.current, Bool.and_eq_true, decide_eq_true_eq, all_min?, List.le_min?_iff hleast, and_assoc]
    simp only [List.mem_flatMap, List.mem_filterMap, List.mem_map, exists_exists_and_eq_and, forall_exists_index, and_imp, mem_def]
    exact and_congr_right fun _ => ⟨fun hall e he => ⟨fun b => hall.1 b e he, fun b => hall.2 b e he⟩,
      fun hall => ⟨fun b e he => (hall e he).1 b, fun b e he => (hall e he).2 b⟩⟩

-- Time passes

theorem later_clear (hpasses : Passes task policy capacity rule p registered profile account estimate)
    (hnow : capacity.as_of ≤ now) :
    resourceReasons task policy { capacity with as_of := now } rule true p = [] ↔
      ∀ pool_id ∈ registered.quota_pool_refs, (checkPool task policy { capacity with as_of := now } account
        profile.binding.account_id estimate (leadAccess task rule) true pool_id).reasons = [] := by
  have haccount : CapacitySnapshot.account? { capacity with as_of := now } profile.binding.account_id = some account :=
    hpasses.at_account
  have hestimate : CapacitySnapshot.estimate? { capacity with as_of := now } p = some estimate := hpasses.estimated
  have hlive : liveAccountReasons account now (leadAccess task rule) = [] := by
    have hlive := hpasses.live
    simp only [liveAccountReasons, List.append_eq_nil_iff, reasonIf_eq_nil, any_eq_false,
      decide_eq_false_iff_not, not_lt] at hlive ⊢
    exact ⟨⟨hlive.1.1, fun until_ hu => (hlive.1.2 until_ hu).trans hnow⟩, hlive.2⟩
  simp [resourceReasons, hpasses.bound, haccount, hestimate, hpasses.fixed, hlive, hpasses.vector,
    poolReasons]

theorem assertCurrent_ok :
    assertCurrent fence now = .ok next ↔ fence.current now = true ∧ fence.through now = next := by
  by_cases hcurrent : fence.current now = true
  · have hfloor : fence.floor ≤ now := by
      simp only [TemporalFence.current, Bool.and_eq_true, decide_eq_true_eq] at hcurrent
      exact hcurrent.1.1
    simp [assertCurrent, hcurrent, hfloor, ensure]
  · simp [assertCurrent, bind_ok, ensure_ok, hcurrent, -bind_pure_comp]

/-- What a fence that accepted the samples accepts now. -/
theorem sampled_current {samples : List Rat} (h : samples.foldlM assertCurrent fence = .ok fence') :
    fence'.current now = true ↔ fence.current now = true ∧ ∀ s ∈ samples, s ≤ now := by
  induction samples generalizing fence with
  | nil =>
    obtain rfl := pure_ok.mp h
    simp
  | cons sample samples ih =>
    simp only [List.foldlM_cons, bind_ok, assertCurrent_ok] at h
    obtain ⟨_, ⟨-, rfl⟩, h⟩ := h
    rw [ih h]
    simp only [TemporalFence.current, TemporalFence.through, List.forall_mem_cons, Bool.and_eq_true, decide_eq_true_eq,
      max_le_iff]
    grind

/-- A pool of the selected profile stays clear exactly as long as the limits of its evaluation hold. -/
theorem pool_limited (hpasses : Passes task policy capacity rule p registered profile account estimate)
    (hm : pool_id ∈ registered.quota_pool_refs) : ∃ e, (checkPool task policy capacity account
        profile.binding.account_id estimate (leadAccess task rule) true pool_id).evaluation = some e ∧
      evaluationLimits account.policy e = .ok (limits account.policy e) ∧ (limits account.policy e).1 ≠ [] ∧
      ∀ now, capacity.as_of ≤ now → ((checkPool task policy { capacity with as_of := now } account
          profile.binding.account_id estimate (leadAccess task rule) true pool_id).reasons = [] ↔
        (∀ b ∈ (limits account.policy e).1, now ≤ b) ∧ ∀ b ∈ (limits account.policy e).2, now < b) := by
  obtain ⟨demand, hdemand⟩ := hpasses.demanded hm
  obtain ⟨found, e, hsince, he, hquota, hage, hlater⟩ := checkPool_later (hpasses.pools pool_id hm) hdemand
  exact ⟨e, he, evaluationLimits_ok hquota hage, by simp [limits, hquota],
    fun now hnow => (hlater now).trans (limits_timely hquota hsince hnow).symm⟩

/-- The fence of a report that selects a profile accepts, after any samples it accepted, exactly
the instants that are not before them and at which the quota of the profile still passes. -/
theorem quota_fence_exact (h : evaluateRoute L task policy capacity = .ok report)
    (hp : report.selected_profile = some p) : ∃ effective rule fence, Opens L task policy effective rule ∧
      captureQuotaTemporalFence report capacity = .ok fence ∧
      ∀ (samples : List Rat) (sampled : TemporalFence), samples.foldlM assertCurrent fence = .ok sampled →
        ∀ as_of, (∃ next, assertCurrent sampled as_of = .ok next) ↔
          capacity.as_of ≤ as_of ∧ (∀ s ∈ samples, s ≤ as_of) ∧
            ∀ row : Candidate, row.profile = p →
              (checkQuota row task policy { capacity with as_of } rule).reason_codes = row.reason_codes := by
  obtain ⟨effective, rule, registered, profile, account, estimate, ho, hpasses⟩ := route_passes h hp
  obtain ⟨row, hrow, hbound, hevaluations⟩ := selected_candidate h hp ho hpasses
  have hmem : ∀ e, e ∈ row.pool_evaluations ↔ ∃ pool_id ∈ registered.quota_pool_refs, (checkPool task policy capacity
      account profile.binding.account_id estimate (leadAccess task rule) true pool_id).evaluation = some e := by
    simp [hevaluations, evaluations]
  obtain ⟨pool_id, hpool⟩ : ∃ pool_id, pool_id ∈ registered.quota_pool_refs := by
    have hvector := hpasses.vector
    simp only [vectorReasons, reasonIf_eq_nil, Bool.or_eq_false_iff, List.isEmpty_eq_false_iff] at hvector
    exact List.exists_mem_of_ne_nil _ hvector.1
  obtain ⟨e, he, -, hne, -⟩ := pool_limited hpasses hpool
  obtain ⟨fence, hfence, hcurrent⟩ := captured_fence hp hrow hbound hpasses.at_account
    (fun e he => by
      obtain ⟨pool_id, hm, he⟩ := (hmem e).mp he
      obtain ⟨_, he', hlimits, -⟩ := pool_limited hpasses hm
      rwa [← some.inj (he.symm.trans he')] at hlimits) ⟨e, (hmem e).mpr ⟨_, hpool, he⟩, hne⟩
  refine ⟨effective, rule, fence, ho, hfence, fun samples sampled hsamples as_of => ?_⟩
  have haccepts : (∃ next, assertCurrent sampled as_of = .ok next) ↔ sampled.current as_of = true := by
    simp [assertCurrent_ok]
  rw [haccepts, sampled_current hsamples, hcurrent, and_assoc, and_congr_right_iff]
  intro hnow
  rw [and_comm, and_congr_right_iff]
  intro _
  have hrows : (∀ row : Candidate, row.profile = p →
      (checkQuota row task policy { capacity with as_of } rule).reason_codes = row.reason_codes) ↔
      resourceReasons task policy { capacity with as_of } rule true p = [] := by
    simp only [checkQuota, checkResources_codes, List.append_right_eq_self, List.map_eq_nil_iff]
    exact ⟨fun hall => hall { row with profile := p } rfl, fun h _ hprofile => hprofile ▸ h⟩
  rw [hrows, later_clear hpasses hnow]
  constructor
  · intro hall pool_id hm
    obtain ⟨e, he, -, -, hclear⟩ := pool_limited hpasses hm
    exact (hclear as_of hnow).mpr (hall e ((hmem e).mpr ⟨_, hm, he⟩))
  · intro hall e he
    obtain ⟨pool_id, hm, he⟩ := (hmem e).mp he
    obtain ⟨_, he', -, -, hclear⟩ := pool_limited hpasses hm
    obtain rfl := some.inj (he.symm.trans he')
    exact (hclear as_of hnow).mp (hall pool_id hm)

theorem quota_fence_exact_sample : ∃ report fence,
    evaluateRoute Sample.library Sample.task Sample.policy Sample.capacity =
      .ok report ∧ captureQuotaTemporalFence report Sample.capacity = .ok fence := by
  have hselected : (evaluateRoute Sample.library Sample.task Sample.policy
      Sample.capacity).toOption.map (·.selected_profile) = some (some (⟨"p", 1⟩ : ProfileRef)) := by
    decide +kernel
  obtain ⟨report, hreport, hp⟩ := ok_of_map hselected
  obtain ⟨_, _, fence, -, hfence, -⟩ := quota_fence_exact hreport hp
  exact ⟨report, fence, hreport, hfence⟩

end Karajan.Assessing
