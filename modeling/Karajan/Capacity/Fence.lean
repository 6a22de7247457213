import Mathlib.Algebra.Order.Group.Nat
import Karajan.Capacity.Evaluation

/-!
# The temporal fence is the decision

A decision with nothing against it stands, at a later instant, exactly as long
as each observation it rests on is still timely. The full evaluation, the fence
and the recheck of what time has changed each come down to that.
-/

namespace Karajan.Capacity

open List Check
variable {t : Tables} {observed : Observation}

-- Timely observations

def Policy.conservativeAge (policy : Policy) : Option Nat :=
  policy.conservative_mode.bind ConservativeMode.observation_max_age_seconds

def Observation.timely (observed : Observation) (policy : Policy) (now : Rat) : Prop :=
  observed.stale policy now = false ∧
    (observed.numericRemaining = none →
      ∀ age, policy.conservativeAge = some age → now - observed.observed_at ≤ age)

theorem complete?_eq_some {mode : ConservativeMode} (h : mode.complete? = some complete) :
    mode.observation_max_age_seconds = some complete.observation_max_age_seconds := by
  simp only [ConservativeMode.complete?, Option.bind_eq_bind, Option.bind_eq_some_iff,
    Option.pure_def, Option.some.injEq] at h
  obtain ⟨_, _, _, _, age, hage, _, _, rfl⟩ := h
  exact hage

/-- Once nothing stood against it, only its age can come to stand against a request
where the quota is not a number: fewer reservations do not. -/
theorem conservative_later (now : Rat) (h : conservative request policy observed held evaluated_at = [])
    (hheld : held'.length ≤ held.length) : ∃ age : Nat, policy.conservativeAge = some age ∧
      (conservative request policy observed held' now = [] ↔ now - observed.observed_at ≤ age) := by
  unfold conservative at h ⊢
  split at h
  · cases h
  case isFalse hofficial =>
    split at h
    · cases h
    case h_2 mode hmode =>
      split at h
      · cases h
      case h_2 complete hcomplete =>
        have hage : policy.conservativeAge = some complete.observation_max_age_seconds := by
          rw [Policy.conservativeAge, (Option.filter_eq_some_iff.mp hmode).1, Option.bind_some]
          exact complete?_eq_some hcomplete
        refine ⟨complete.observation_max_age_seconds, hage, ?_⟩
        simp only [append_eq_nil_iff, reasonIf_eq_nil, decide_eq_false_iff_not] at h
        simp only [if_neg hofficial, append_eq_nil_iff, reasonIf_eq_nil, decide_eq_false_iff_not, not_lt]
        exact ⟨fun hnow => hnow.2, fun hnow => ⟨⟨by omega, by omega⟩, hnow⟩⟩

-- One observation

theorem futureUsage_sublist (h : held'.Sublist held) :
    futureUsage all_usage pool_id held' ≤ futureUsage all_usage pool_id held :=
  (h.map _).sum_le_sum fun _ _ => Nat.zero_le _

theorem quantityFor_sublist (h : held'.Sublist held) : t.quantityFor request policy pool observed amount held ≤
      t.quantityFor request policy pool observed amount held' := by
  have hfuture : futureUsage (t.usageOf pool.account_id) pool.id held' ≤
      futureUsage (t.usageOf pool.account_id) pool.id held := futureUsage_sublist h
  simp only [Tables.quantityFor, Tables.quantity]
  omega

theorem observedPool_clear : (observedPool t request policy failures held now pool observed).reasons = [] ↔
      observed.stale policy now = false ∧
      (pool.kind = .service && policy.require_official_observation && observed.source ≠ .official) = false ∧
      ((observed.numericRemaining.isNone && exhausted t pool observed failures) ||
        failures.any (fun failure => failure.exhausts pool && observed.observed_at ≤ failure.at_time)) = false ∧
      match observed.numericRemaining with
      | none => conservative request policy observed held now = []
      | some amount => quantityOf request.demand pool.id ≤
          t.quantityFor request policy pool observed amount held := by
  unfold observedPool
  split
  case isTrue hstale => simp [hstale]
  case isFalse hstale =>
    split
    case isTrue hofficial =>
      rw [hofficial]
      simp
    case isFalse hofficial =>
      split
      case isTrue hexhausted =>
        rw [hexhausted]
        simp
      case isFalse hexhausted =>
        simp only [hstale, hofficial, hexhausted, true_and]
        cases observed.numericRemaining <;> simp

open Observation (timely stale reset_at)

/-- A pool nothing stood against is clear, later and with fewer reservations, as long
as its observation is timely. -/
theorem observedPool_later
    (h : (observedPool t request policy failures held evaluated_at pool observed).reasons = [])
    (hheld : held'.Sublist held) : (observedPool t request policy failures held' now pool observed).reasons = [] ↔
      observed.timely policy now := by
  obtain ⟨-, hofficial, hexhausted, hquota⟩ := observedPool_clear.mp h
  rw [observedPool_clear, timely]
  simp only [hofficial, hexhausted, true_and]
  refine and_congr_right fun _ => ?_
  cases hnumeric : observed.numericRemaining with
  | none =>
    rw [hnumeric] at hquota
    obtain ⟨age, hage, hlater⟩ := conservative_later now hquota hheld.length_le
    simp [hlater, hage]
  | some amount =>
    rw [hnumeric] at hquota
    simpa using le_trans hquota (quantityFor_sublist hheld)

theorem stale_later (h : observed.stale policy evaluated_at = false) (hnow : evaluated_at ≤ now) :
    observed.stale policy now = false ↔ now ≤ observed.observed_at + policy.observation_max_age_seconds ∧
      ∀ reset, observed.reset_at = some reset → now < reset := by
  simp only [stale, Bool.or_eq_false_iff, decide_eq_false_iff_not, not_lt] at h ⊢
  have hpast : observed.observed_at ≤ now := le_trans h.1.1 hnow
  simp only [hpast, true_and]
  refine and_congr (sub_le_iff_le_add') ?_
  cases observed.reset_at <;> simp

def bounds (policy : Policy) (observed : Observation) : List Rat :=
  (observed.observed_at + policy.observation_max_age_seconds) ::
    if observed.numericRemaining.isSome then []
    else (policy.conservativeAge.map fun age => observed.observed_at + age).toList

section
variable (h : (observedPool t request policy failures held evaluated_at pool observed).reasons = [])
include h

theorem inclusiveBounds_clear : inclusiveBounds policy observed = .ok (bounds policy observed) := by
  obtain ⟨-, -, -, hquota⟩ := observedPool_clear.mp h
  cases hnumeric : observed.numericRemaining with
  | some amount => simp [inclusiveBounds, bounds, hnumeric]
  | none =>
    rw [hnumeric] at hquota
    obtain ⟨age, hage, -⟩ := conservative_later evaluated_at hquota (le_refl held.length)
    obtain ⟨mode, hmode, hmodeAge⟩ := Option.bind_eq_some_iff.mp hage
    simp [inclusiveBounds, bounds, hnumeric, hmode, hmodeAge, hage, need]

theorem bounds_timely (hnow : evaluated_at ≤ now) : (∀ bound ∈ bounds policy observed, now ≤ bound) ∧
        (∀ reset, observed.reset_at = some reset → now < reset) ↔ observed.timely policy now := by
  obtain ⟨hstale, -, -, hquota⟩ := observedPool_clear.mp h
  simp only [timely, stale_later hstale hnow, bounds]
  cases observed.numericRemaining with
  | some amount => simp
  | none => cases policy.conservativeAge <;> simp [add_comm, and_assoc, and_comm]

end

-- The whole decision

theorem evaluatePool_clear : (evaluatePool t request policy failures held now pool).reasons = [] ↔
      windowKept request (t.observation pool.id) pool.id = true ∧
      ∃ observed, t.observation pool.id = some observed ∧
        (observedPool t request policy failures held now pool observed).reasons = [] := by
  unfold evaluatePool
  cases t.observation pool.id <;> simp

structure Clear (t : Tables) (request : AdmissionRequest) (profile : Profile) (policy : Policy)
    (policy_revision : Nat) (held : List Reservation) (now : Rat) (pools : List Pool) : Prop where
  demand : sameKeys request.demand.keys profile.pool_ids = true
  windows : (request.expected_capacity.any fun expected =>
    !sameKeys expected.pool_windows.keys profile.pool_ids) = false
  known : each t.pool (profile.pool_ids.insertionSort (· ≤ ·)) = .ok pools
  account : accountReasons t request profile policy policy_revision held now = []
  pool : ∀ pool ∈ pools,
    (evaluatePool t request policy (t.failuresOf profile.account_id) held now pool).reasons = []

theorem evaluate_clear (h : evaluate t request profile policy policy_revision held now = .ok evaluation)
    (hreasons : evaluation.reasons = []) :
    ∃ pools, Clear t request profile policy policy_revision held now pools ∧
      evaluation.observations = pools.map fun pool => (pool.id, t.observation pool.id) := by
  unfold evaluate at h
  split at h
  · cases h; cases hreasons
  case isFalse hdemand =>
    split at h
    · cases h; cases hreasons
    case isFalse hwindows =>
      simp only [bind_ok, pure_ok] at h
      obtain ⟨pools, hpools, rfl⟩ := h
      simp only [append_eq_nil_iff, flatMap_map, flatMap_eq_nil_iff] at hreasons
      exact ⟨pools, ⟨by simpa using hdemand, by simpa using hwindows, hpools, hreasons.1, hreasons.2⟩, rfl⟩

theorem Clear.evaluate (h : Clear t request profile policy policy_revision held now pools) :
    ∃ evaluation, evaluate t request profile policy policy_revision held now = .ok evaluation ∧
      evaluation.reasons = [] := by
  simp only [Capacity.evaluate, h.demand, h.windows, h.known]
  refine ⟨_, rfl, ?_⟩
  simp only [append_eq_nil_iff, flatMap_map, flatMap_eq_nil_iff]
  exact ⟨h.account, h.pool⟩

theorem accountReasons_later (h : accountReasons t request profile policy policy_revision held evaluated_at = [])
    (hheld : held'.Sublist held) (hnow : evaluated_at ≤ now) :
    accountReasons t request profile policy policy_revision held' now = [] := by
  have hlength := hheld.length_le
  simp only [accountReasons, append_eq_nil_iff, reasonIf_eq_nil, decide_eq_false_iff_not,
    any_eq_false, decide_eq_true_eq, not_lt] at h ⊢
  obtain ⟨⟨⟨hrevision, hslots⟩, hduration⟩, hcooldown⟩ := h
  exact ⟨⟨⟨hrevision, by omega⟩, hduration⟩, fun row hrow => le_trans (hcooldown row hrow) hnow⟩

def AllTimely (observations : List (String × Option Observation)) (policy : Policy) (now : Rat) : Prop :=
  ∀ entry ∈ observations, ∀ observed, entry.2 = some observed → observed.timely policy now

theorem all_min? {l : List Rat} : l.min?.all (now < ·) = true ↔ ∀ b ∈ l, now < b := by
  cases hmin : l.min? with
  | none => simp [min?_eq_none_iff.mp hmin]
  | some least =>
    simp only [Option.all_some, decide_eq_true_eq]
    exact ⟨fun hlt b hb => lt_of_lt_of_le hlt ((le_min?_iff hmin).mp le_rfl b hb),
      fun hall => hall least (min?_mem hmin)⟩

variable (h : evaluate t request profile policy policy_revision held evaluated_at = .ok evaluation)
  (hreasons : evaluation.reasons = [])
include h hreasons

theorem evaluate_later (hheld : held'.Sublist held) (hnow : evaluated_at ≤ now) :
    (∃ later, evaluate t request profile policy policy_revision held' now = .ok later ∧
      later.reasons = []) ↔ AllTimely evaluation.observations policy now := by
  obtain ⟨pools, hclear, hobservations⟩ := evaluate_clear h hreasons
  constructor
  · rintro ⟨later, hlater, hnone⟩
    obtain ⟨pools', hclear', -⟩ := evaluate_clear hlater hnone
    cases hclear.known.symm.trans hclear'.known
    rw [hobservations]
    rintro entry hentry observed hobserved
    obtain ⟨pool, hpool, rfl⟩ := List.mem_map.mp hentry
    obtain ⟨-, first, hfirst, hthen⟩ := evaluatePool_clear.mp (hclear.pool pool hpool)
    obtain ⟨-, second, hsecond, hlater⟩ := evaluatePool_clear.mp (hclear'.pool pool hpool)
    cases hfirst.symm.trans hobserved
    cases hsecond.symm.trans hobserved
    exact (observedPool_later hthen hheld).mp hlater
  · intro htimely
    have hpools : ∀ pool ∈ pools, (evaluatePool t request policy
        (t.failuresOf profile.account_id) held' now pool).reasons = [] := by
      intro pool hpool
      obtain ⟨hkept, observed, hobserved, hthen⟩ := evaluatePool_clear.mp (hclear.pool pool hpool)
      refine evaluatePool_clear.mpr ⟨hkept, observed, hobserved, ?_⟩
      refine (observedPool_later hthen hheld).mpr (htimely (pool.id, some observed) ?_ observed rfl)
      rw [hobservations, ← hobserved]
      exact List.mem_map.mpr ⟨pool, hpool, rfl⟩
    have haccount := accountReasons_later hclear.account hheld hnow
    exact Clear.evaluate ⟨hclear.demand, hclear.windows, hclear.known, haccount, hpools⟩

theorem observed_clear : evaluation.observations ≠ [] ∧ ∀ entry ∈ evaluation.observations, ∃ pool observed,
      entry = (pool.id, some observed) ∧
      (observedPool t request policy (t.failuresOf profile.account_id) held evaluated_at pool
        observed).reasons = [] := by
  obtain ⟨pools, hclear, hobservations⟩ := evaluate_clear h hreasons
  rw [hobservations]
  constructor
  · have hlength : pools.length = profile.pool_ids.length := by
      rw [each_length hclear.known, length_insertionSort]
    have hpos : 0 < pools.length := hlength ▸ List.length_pos_iff.mpr profile.nonempty
    simpa using List.length_pos_iff.mp hpos
  · rintro entry hentry
    obtain ⟨pool, hpool, rfl⟩ := List.mem_map.mp hentry
    obtain ⟨-, observed, hobserved, hthen⟩ := evaluatePool_clear.mp (hclear.pool pool hpool)
    exact ⟨pool, observed, by rw [hobserved], hthen⟩

theorem finalTemporalReasons_later (hfloor : floor ≤ now) :
    finalTemporalReasons request policy held evaluation.observations now floor = [] ↔
      AllTimely evaluation.observations policy now := by
  have hclear := (observed_clear h hreasons).2
  simp only [finalTemporalReasons, not_lt.mpr hfloor, append_eq_nil_iff, reasonIf_eq_nil,
    decide_false, true_and, flatMap_eq_nil_iff, AllTimely]
  refine forall₂_congr fun entry hentry => ?_
  obtain ⟨pool, observed, rfl, hthen⟩ := hclear entry hentry
  obtain ⟨-, -, -, hquota⟩ := observedPool_clear.mp hthen
  simp [forall_eq', timely]
  cases hstale : observed.stale policy now with
  | true => simp
  | false =>
    cases hnumeric : observed.numericRemaining with
    | some amount => simp
    | none =>
      rw [hnumeric] at hquota
      obtain ⟨age, hage, hlater⟩ := conservative_later now hquota (le_refl held.length)
      simp [hlater, hage]

theorem temporalFence_later : ∃ fence, temporalFence policy evaluation.observations evaluated_at = .ok fence ∧
      fence.floor = evaluated_at ∧
      ∀ now, fence.current now = true ↔ evaluated_at ≤ now ∧ AllTimely evaluation.observations policy now := by
  obtain ⟨hne, hclear⟩ := observed_clear h hreasons
  let observed := evaluation.observations.filterMap Prod.snd
  have hmem : ∀ o, o ∈ observed ↔ ∃ entry ∈ evaluation.observations, entry.2 = some o := fun o => mem_filterMap
  have hobserved : each (fun entry => need entry.2 CapacityError.temporalFactsInvalid)
      evaluation.observations = .ok observed := by
    refine each_need fun entry hentry => ?_
    obtain ⟨_, o, rfl, -⟩ := hclear entry hentry
    exact ⟨o, rfl⟩
  have hpool : ∀ o ∈ observed, ∃ pool, (observedPool t request policy
      (t.failuresOf profile.account_id) held evaluated_at pool o).reasons = [] := by
    intro o ho
    obtain ⟨entry, hentry, heq⟩ := (hmem o).mp ho
    obtain ⟨pool, o', rfl, hthen⟩ := hclear entry hentry
    cases heq
    exact ⟨pool, hthen⟩
  have hbounds : each (inclusiveBounds policy) observed = .ok (observed.map (bounds policy)) :=
    each_map fun o ho => (hpool o ho).elim fun _ => inclusiveBounds_clear
  obtain ⟨inclusive_until, hmin⟩ : ∃ m, (observed.map (bounds policy)).flatten.min? = some m := by
    obtain ⟨entry, hentry⟩ := exists_mem_of_ne_nil _ hne
    obtain ⟨_, o, rfl, -⟩ := hclear entry hentry
    have hb : o.observed_at + policy.observation_max_age_seconds ∈
        (observed.map (bounds policy)).flatten :=
      List.mem_flatten.mpr ⟨_, mem_map_of_mem ((hmem o).mpr ⟨_, hentry, rfl⟩), by simp [bounds]⟩
    exact Option.isSome_iff_exists.mp (isSome_min?_of_mem hb)
  refine ⟨⟨evaluated_at, inclusive_until, (observed.filterMap reset_at).min?⟩, ?_, rfl, fun now => ?_⟩
  · rw [temporalFence, hobserved, ok_bind, hbounds, ok_bind, hmin]
    rfl
  · simp only [TemporalFence.current, Bool.and_eq_true, decide_eq_true_eq, all_min?, le_min?_iff hmin, and_assoc]
    refine and_congr_right fun hnow => ?_
    have htimely : AllTimely evaluation.observations policy now ↔
        ∀ o ∈ observed, o.timely policy now := by
      simp only [AllTimely, hmem]
      exact ⟨fun hall o ⟨entry, hentry, heq⟩ => hall entry hentry o heq,
        fun hall entry hentry o heq => hall o ⟨entry, hentry, heq⟩⟩
    have hone : ∀ o ∈ observed, ((∀ bound ∈ bounds policy o, now ≤ bound) ∧
        (∀ reset, o.reset_at = some reset → now < reset) ↔ o.timely policy now) :=
      fun o ho => (hpool o ho).elim fun _ hthen => bounds_timely hthen hnow
    rw [htimely]
    simp only [mem_flatten, mem_map, mem_filterMap]
    constructor
    · rintro ⟨hage, hreset⟩ o ho
      exact (hone o ho).mp ⟨fun bound hb => hage bound ⟨_, ⟨o, ho, rfl⟩, hb⟩,
        fun reset hr => hreset reset ⟨o, ho, hr⟩⟩
    · intro hall
      refine ⟨?_, ?_⟩
      · rintro bound ⟨_, ⟨o, ho, rfl⟩, hb⟩
        exact ((hone o ho).mpr (hall o ho)).1 bound hb
      · rintro reset ⟨o, ho, hr⟩
        exact ((hone o ho).mpr (hall o ho)).2 reset hr

end Karajan.Capacity
