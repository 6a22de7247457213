import Karajan.Capacity.Lifecycle
import Karajan.Lib.Windows

/-!
# The quota windows of a pool

The applied observations of a fixed-window pool are a log of windows: whether an
observation is applied is decided by what may follow such a log. Usage that is
attributed to a window counts while the window is current, and after that until
its own reset.
-/

namespace Karajan.Capacity

open List Dict Check
variable {t t' : Tables}

abbrev WindowLog (observations : List Observation) : Prop :=
  Windows.Log Observation.observed_at Observation.window_id Observation.reset_at observations

structure Windowed (t : Tables) : Prop where
  log : ∀ pool_id pool, t.pools.get? pool_id = some pool → pool.window_kind = .fixed →
    WindowLog (t.appliedTo pool_id)
  /-- The reset that is recorded with a receipt is one its window was observed with. -/
  resets : ∀ id row, t.usage.get? id = some row → ∀ pool_id window_id reset,
    row.receipt.window_ids.get? pool_id = some (some window_id) →
    row.window_resets.get? pool_id = some (some reset) →
    ∃ found ∈ t.appliedTo pool_id, found.window_id = window_id ∧ found.reset_at = some reset

theorem appliedTo_append : ({ t with observations := t.observations ++ [row] } : Tables).appliedTo pool_id =
      if row.applied = true ∧ row.observation.pool_id = pool_id then
        t.appliedTo pool_id ++ [row.observation]
      else t.appliedTo pool_id := by
  simp only [Tables.appliedTo, filter_append, map_append]
  split <;> simp_all

theorem appliedTo_expire : (expire account now t).appliedTo pool_id = t.appliedTo pool_id := by
  rw [Tables.appliedTo, expire_observations]
  rfl

theorem Observes.follows {pool : Pool} (h : Observes t row) (happlied : row.applied = true)
    (hpool : t.pools.get? row.observation.pool_id = some pool) (hfixed : pool.window_kind = .fixed) :
    Windows.Follows Observation.observed_at Observation.window_id Observation.reset_at
      (t.appliedTo row.observation.pool_id) row.observation := by
  obtain ⟨pool', hpool', hconflict⟩ := h.pool
  cases hpool.symm.trans hpool'
  have happlies := h.applied ▸ happlied
  refine ⟨fun p hp => ?_, fun p hp hne => ?_, h.reset, fun p hp hw r hr => ?_⟩
  · simp only [Observation.applies, Tables.observation, hp, Bool.and_eq_true, decide_eq_true_eq] at happlies
    exact happlies.1
  · simp only [Observation.applies, Tables.observation, hp, Bool.and_eq_true, Bool.or_eq_true,
      decide_eq_true_eq, Option.any_eq_true] at happlies
    exact happlies.2.resolve_left hne
  · have hsame := hconflict hfixed p hp
    simp [Observation.windowConflict, hw, hr] at hsame
    exact hsame.symm

theorem Windowed.expire (h : Windowed t) : Windowed (expire account now t) := by
  refine ⟨?_, ?_⟩
  · simp only [expire_pools, appliedTo_expire]
    exact h.log
  · simp only [expire_usage, appliedTo_expire]
    exact h.resets

theorem Windowed.edit (hedit : Edit t t') (hob : Accounted t) (h : Windowed t) : Windowed t' := by
  cases hedit with
  | @pool new hnew =>
    refine ⟨fun pool_id pool hp hfixed => ?_, h.resets⟩
    rw [get?_put] at hp
    split at hp
    case isTrue heq =>
      -- Nothing was observed of a pool before it was registered.
      have hnone : t.appliedTo pool_id = [] := by
        simp only [Tables.appliedTo, map_eq_nil_iff, filter_eq_nil_iff, Bool.and_eq_true,
          decide_eq_true_eq, not_and]
        rintro row hrow - rfl
        obtain ⟨old, hold⟩ := hob.observations row hrow
        rw [← heq, hnew] at hold
        cases hold
      exact (congrArg WindowLog hnone).mpr .nil
    · exact h.log pool_id pool hp hfixed
  | @observation row hobserves =>
    refine ⟨fun pool_id pool hp hfixed => ?_, fun id used hused pool_id window_id reset hw hr => ?_⟩
    · rw [appliedTo_append]
      split
      case isTrue happlied =>
        obtain ⟨happlied, rfl⟩ := happlied
        exact .snoc (h.log _ pool hp hfixed) (hobserves.follows happlied hp hfixed)
      · exact h.log pool_id pool hp hfixed
    · obtain ⟨found, hfound, heq⟩ := h.resets id used hused pool_id window_id reset hw hr
      refine ⟨found, ?_, heq⟩
      rw [appliedTo_append]
      split
      · exact mem_append_left _ hfound
      · exact hfound
  | @usage item row huses =>
    refine ⟨h.log, fun id used hused pool_id window_id reset hw hr => ?_⟩
    rcases of_put hused with ⟨-, rfl⟩ | ⟨-, hused⟩
    · obtain ⟨found, hfound, hid, hreset⟩ := huses.windows pool_id window_id hw
      rw [hr, Option.some.injEq] at hreset
      exact ⟨found, hfound, hid, hreset.symm⟩
    · exact h.resets id used hused pool_id window_id reset hw hr
  | _ => exact ⟨h.log, h.resets⟩

theorem reach_windowed (h : (system L).Reach System.free s) : Windowed s.tables := by
  have hempty : Accounted .empty ∧ Windowed .empty := by
    refine ⟨.empty, fun _ _ hp => ?_, fun _ _ hrow => ?_⟩
    · cases hp
    · cases hrow
  exact (reach_keeps (I := fun t => Accounted t ∧ Windowed t) hempty
    (fun _ _ _ hk ht => ⟨ht.1.expire hk, ht.2.expire⟩)
    (fun _ _ _ hedit ht => ⟨ht.1.edit hedit, ht.2.edit hedit ht.1⟩) h).2.2

-- Usage of a window

/-- The row is one of those the uncovered usage of the pool is the sum of. -/
def Tables.counts (t : Tables) (pool : Pool) (observed : Observation) (row : UsageRow) : Prop :=
  row ∈ (t.usageOf pool.account_id).filter fun row => row.uncovered pool observed

theorem uncovered_iff {row : UsageRow}
    (hamount : (row.receipt.amounts.get? pool.id).isSome = true) (hfixed : pool.window_kind = .fixed)
    (hwindow : row.receipt.window_ids.get? pool.id = some (some window_id)) : row.uncovered pool observed = true ↔
      row.receipt.id ∉ observed.covered_usage_ids ∧
      (window_id ≠ observed.window_id → ∀ reset,
        row.window_resets.get? pool.id = some (some reset) → observed.observed_at < reset) := by
  simp only [UsageRow.uncovered, hamount, hfixed, hwindow, Bool.true_and, Bool.and_eq_true,
    Bool.not_eq_true', contains_eq_mem, decide_eq_false_iff_not, decide_true]
  refine and_congr_right fun _ => ?_
  cases hreset : row.window_resets.get? pool.id with
  | none => simp
  | some reset => cases reset <;> simp

theorem Accounted.usageOf {id : String} (h : Accounted t) (hpool : t.pools.get? pool.id = some pool)
    (hrow : t.usage.get? id = some row) (hamount : (row.receipt.amounts.get? pool.id).isSome = true) :
    row ∈ t.usageOf pool.account_id := by
  obtain ⟨amount, hamount⟩ := Option.isSome_iff_exists.mp hamount
  have hkey : pool.id ∈ row.receipt.amounts.keys := Dict.mem_keys.mpr ⟨amount, hamount⟩
  obtain ⟨pool', hpool', haccount⟩ := (h.usage id row hrow).2 pool.id hkey
  cases hpool.symm.trans hpool'
  simp only [Tables.usageOf, List.mem_filter, decide_eq_true_eq, haccount, and_true]
  exact Dict.mem_values.mpr ⟨id, hrow⟩

/-- The windows of a fixed-window pool move forward only: its applied observations grow
newer, a window has one reset and is left for good once that has passed, and the resets
follow each other. A receipt attributed to a window counts while that window is
current and uncovered, and is dropped only where the current observation covers it or
follows the reset that its own window was observed with. -/
theorem windows_forward {pool : Pool} (h : (system L).Reach System.free s)
    (hpool : s.tables.pools.get? pool.id = some pool) (hfixed : pool.window_kind = .fixed) :
    ((s.tables.appliedTo pool.id).Pairwise fun x y => x.observed_at < y.observed_at) ∧
    (∀ x ∈ s.tables.appliedTo pool.id, ∀ y ∈ s.tables.appliedTo pool.id,
      x.window_id = y.window_id → ∀ r r', x.reset_at = some r → y.reset_at = some r' → r = r') ∧
    (∀ front x y rest, s.tables.appliedTo pool.id = front ++ x :: y :: rest →
      x.window_id ≠ y.window_id → ∃ r, x.reset_at = some r ∧ r ≤ y.observed_at) ∧
    (∀ x y z, [x, y, z].Sublist (s.tables.appliedTo pool.id) → x.window_id = z.window_id →
      y.window_id = x.window_id) ∧
    (∀ x y, [x, y].Sublist (s.tables.appliedTo pool.id) → x.window_id ≠ y.window_id →
      ∀ r r', x.reset_at = some r → y.reset_at = some r' → r < r') ∧
    (∀ id row observed window_id, s.tables.usage.get? id = some row →
      (row.receipt.amounts.get? pool.id).isSome = true → s.tables.observation pool.id = some observed →
      row.receipt.window_ids.get? pool.id = some (some window_id) →
      (window_id = observed.window_id → id ∉ observed.covered_usage_ids → s.tables.counts pool observed row) ∧
      (¬ s.tables.counts pool observed row → id ∈ observed.covered_usage_ids ∨
        window_id ≠ observed.window_id ∧ ∃ reset,
          row.window_resets.get? pool.id = some (some reset) ∧ reset ≤ observed.observed_at ∧
          ∃ found ∈ s.tables.appliedTo pool.id, found.window_id = window_id ∧ found.reset_at = some reset)) := by
  have hwindowed := reach_windowed h
  have hob := reach_accounted h
  have hlog := hwindowed.log pool.id pool hpool hfixed
  refine ⟨hlog.increasing, fun x hx y hy hw r r' => hlog.same_end hx hy hw,
    fun front x y rest heq hw => ?_, fun x y z hsub hw => hlog.contiguous hsub hw,
    fun x y hsub hw r r' => hlog.ends_increasing hsub hw,
    fun id row observed window_id hrow hamount hobserved hwindow => ?_⟩
  · rw [heq] at hlog
    exact hlog.left hw
  have hid := (hob.usage id row hrow).1
  have hcounts : s.tables.counts pool observed row ↔ row.uncovered pool observed = true := by
    rw [Tables.counts, List.mem_filter, and_iff_right (hob.usageOf hpool hrow hamount)]
  rw [hcounts, uncovered_iff hamount hfixed hwindow, hid]
  constructor
  · exact fun hcurrent huncovered => ⟨huncovered, fun hne => absurd hcurrent hne⟩
  · intro hdropped
    by_cases hcovered : id ∈ observed.covered_usage_ids
    · exact .inl hcovered
    · right
      simp only [hcovered, not_false_eq_true, true_and, Classical.not_forall, not_lt] at hdropped
      obtain ⟨hne, reset, hreset, hle⟩ := hdropped
      exact ⟨hne, reset, hreset, hle, hwindowed.resets id row hrow pool.id window_id reset hwindow hreset⟩

section Sample

/-- The pool is observed again, in the window after the reset of the first one. -/
def nextObservation : Observation :=
  { sampleObservation with window_id := "x", observed_at := 120, reset_at := some 200 }

def observedState : State :=
  (system sampleLibrary).run State.empty
    (sampleActions ++ [⟨"7", .observe nextObservation, sampleWorld [125] ""⟩])

theorem windows_forward_next : ∃ r, sampleObservation.reset_at = some r ∧ r ≤ 120 := by
  have happlied : observedState.tables.appliedTo samplePool.id =
      [sampleObservation, nextObservation] := by decide +kernel
  have hpool : observedState.tables.pools.get? samplePool.id = some samplePool := by decide +kernel
  have hreach : (system sampleLibrary).Reach System.free observedState := ⟨State.empty, rfl, .of_free_run⟩
  obtain ⟨-, -, hleft, -⟩ := windows_forward hreach hpool rfl
  exact hleft [] sampleObservation nextObservation [] happlied (by decide)

end Sample

end Karajan.Capacity

-- Services and what they report

namespace Karajan.Capacity

open Check

structure Serviced (t : Tables) : Prop where
  profiles : ∀ k profile, t.profiles.get? k = some profile → k = (profile.id, profile.revision) ∧
    ∃ pool_id ∈ profile.pool_ids, ∃ pool, t.pools.get? pool_id = some pool ∧ pool.kind = .service
  advancing : ∀ pool_id, (t.appliedTo pool_id).Pairwise fun x y => x.observed_at < y.observed_at

theorem Serviced.empty : Serviced .empty := by
  refine ⟨fun _ _ h => ?_, fun _ => ?_⟩
  · cases h
  · simp [Tables.appliedTo, Tables.empty]

theorem Serviced.expire (h : Serviced t) : Serviced (expire account now t) := by
  refine ⟨?_, ?_⟩
  · rw [expire_profiles, expire_pools]
    exact h.profiles
  · simp only [appliedTo_expire]
    exact h.advancing

theorem Serviced.latest (h : Serviced t) (hcurrent : t.observation pool_id = some current) :
    ∀ old ∈ t.appliedTo pool_id, old.observed_at ≤ current.observed_at := by
  obtain ⟨front, hfront⟩ := List.getLast?_eq_some_iff.mp hcurrent
  have hadvancing := h.advancing pool_id
  rw [hfront, List.pairwise_append] at hadvancing
  intro old hold
  rw [hfront] at hold
  rcases List.mem_append.mp hold with hold | hold
  · exact le_of_lt (hadvancing.2.2 old hold current (by simp))
  · exact le_of_eq (congrArg _ (List.mem_singleton.mp hold))

theorem Serviced.edit (hedit : Edit t t') (h : Serviced t) : Serviced t' := by
  cases hedit with
  | @pool new hnew =>
    refine ⟨fun k profile hp => ?_, h.advancing⟩
    obtain ⟨hkey, pool_id, hm, pool, hpool, hkind⟩ := h.profiles k profile hp
    exact ⟨hkey, pool_id, hm, pool, Dict.get?_put_new hnew hpool, hkind⟩
  | @profile new _ hserved _ =>
    refine ⟨fun k profile hp => ?_, h.advancing⟩
    rcases Dict.of_put hp with ⟨hkey, rfl⟩ | ⟨-, hp⟩
    · exact ⟨hkey.symm, hserved⟩
    · exact h.profiles k profile hp
  | @observation row hobserves =>
    refine ⟨h.profiles, fun pool_id => ?_⟩
    rw [appliedTo_append]
    split
    case isTrue happlied =>
      obtain ⟨happlied, rfl⟩ := happlied
      rw [List.pairwise_append]
      refine ⟨h.advancing _, by simp, fun old hold new hnew => ?_⟩
      rw [List.mem_singleton.mp hnew]
      -- Something was applied before, so the new observation is compared with the current one.
      cases hcurrent : t.observation row.observation.pool_id with
      | none =>
        rw [Tables.observation, List.getLast?_eq_none_iff] at hcurrent
        rw [hcurrent] at hold
        cases hold
      | some current =>
        have happlies := hobserves.applied ▸ happlied
        simp only [Observation.applies, hcurrent, Bool.and_eq_true, decide_eq_true_eq] at happlies
        exact lt_of_le_of_lt (h.latest hcurrent old hold) happlies.1
    · exact h.advancing pool_id
  | _ => exact ⟨h.profiles, h.advancing⟩

theorem reach_serviced (h : (system L).Reach System.free s) : Serviced s.tables :=
  (reach_keeps .empty (fun _ _ _ _ => Serviced.expire) (fun _ _ _ hedit => Serviced.edit hedit) h).2

theorem Serviced.unexhausted (h : Serviced t) (hcurrent : t.observation pool.id = some current)
    (hexhausted : exhausted t pool current failures = false) :
    failures.any (fun failure => failure.exhausts pool && current.observed_at ≤ failure.at_time) = false := by
  rw [List.any_eq_false]
  intro failure hfailure
  simp only [Bool.and_eq_true, decide_eq_true_eq, not_and, not_le]
  intro hexhausts
  simp only [exhausted] at hexhausted
  cases hlatest : ((t.appliedTo pool.id).filter fun old => old.numericRemaining.isSome).getLast? with
  | none =>
    simp only [hlatest, List.any_eq_false] at hexhausted
    exact absurd hexhausts (hexhausted failure hfailure)
  | some latest =>
    have hmem := List.mem_of_mem_filter (List.mem_of_getLast? hlatest)
    simp only [hlatest, Bool.or_eq_false_iff, List.any_eq_false] at hexhausted
    have hlater := hexhausted.1 failure hfailure
    simp only [hexhausts, Bool.true_and, Bool.not_eq_true, Bool.or_eq_false_iff,
      decide_eq_false_iff_not, not_le] at hlater
    exact lt_of_lt_of_le hlater.1 (h.latest hcurrent latest hmem)

end Karajan.Capacity
