import Karajan.Capacity.Admission

/-!
# Each command, in edits

A command that goes through is a series of expiries and at most one edit. The
store keeps its tables keyed and every edit is of such tables, so a run of the
store is a run of expiries and edits.
-/

namespace Karajan.Capacity

open List Check
variable {t t' : Tables}

theorem reservation_ok : t.reservation admission_id = .ok item ↔
    t.reservations.get? admission_id = some item := by
  simp [Tables.reservation, need_ok]

theorem pool_ok : t.pool pool_id = .ok pool ↔ t.pools.get? pool_id = some pool := by
  simp [Tables.pool, need_ok]

/-- An edit that is of no reservation. -/
def Aside (t t' : Tables) : Prop := Edit t t' ∧ t'.reservations = t.reservations

theorem registerPool_edit (h : registerPool pool t = .ok t') : Aside t t' := by
  unfold registerPool at h
  split at h
  · simp only [bind_ok, pure_ok] at h
    obtain ⟨_, _, rfl⟩ := h
    exact ⟨.nothing, rfl⟩
  case h_2 hnew => cases h; exact ⟨.pool hnew, rfl⟩

theorem registerProfile_edit (h : registerProfile profile t = .ok t') : Aside t t' := by
  simp only [registerProfile, bind_ok, ensure_ok, Bool.and_eq_true, all_eq_true,
    any_eq_true, decide_eq_true_eq] at h
  obtain ⟨pools, hpools, _, ⟨haccount, service, hservice, hkind⟩, h⟩ := h
  split at h
  · simp only [bind_ok, pure_ok] at h
    obtain ⟨_, _, rfl⟩ := h
    exact ⟨.nothing, rfl⟩
  case h_2 hnew =>
    cases h
    refine ⟨.profile (fun pool_id hm => ?_) ?_ hnew, rfl⟩
    · obtain ⟨pool, hpool, hmem⟩ := each_ok hpools pool_id hm
      exact ⟨pool, pool_ok.mp hpool, haccount pool hmem⟩
    · obtain ⟨pool_id, hm, hpool⟩ := each_mem hpools service hservice
      exact ⟨pool_id, hm, service, pool_ok.mp hpool, hkind⟩

theorem appendPolicy_edit (h : appendPolicy policy revision t = .ok t') : Aside t t' := by
  simp only [appendPolicy, bind_ok, pure_ok] at h
  obtain ⟨_, _, _, _, _, _, rfl⟩ := h
  exact ⟨.policy, rfl⟩

theorem activatePolicy_edit (h : activatePolicy policy revision t = .ok t') : Aside t t' := by
  simp only [activatePolicy, bind_ok] at h
  obtain ⟨_, _, h⟩ := h
  exact appendPolicy_edit h

theorem updateProtection_edit (h : updateProtection policy revision t = .ok t') : Aside t t' := by
  simp only [updateProtection, bind_ok] at h
  obtain ⟨_, _, _, _, _, _, _, _, h⟩ := h
  exact appendPolicy_edit h

theorem observe_edit (h : observe value clock t = .ok (row, t')) : Aside t t' := by
  simp only [observe, bind_ok, pure_ok, pool_ok, ensure_ok, readClock_ok, Prod.exists,
    Prod.mk.injEq, Bool.and_eq_true, decide_eq_true_eq] at h
  obtain ⟨pool, hpool, now, _, _, _, ⟨-, hreset⟩, _, -, _, -, _, -, _, -, _, hwindow, rfl, rfl⟩ := h
  refine ⟨.observation ⟨⟨pool, hpool, fun hfixed old hold => ?_⟩, fun reset hr => ?_, rfl⟩, rfl⟩
  · simp only [hfixed, decide_true, Bool.true_and, Bool.not_eq_true', any_eq_false] at hwindow
    simpa using hwindow old hold
  · rw [hr] at hreset
    simpa using hreset

theorem activate_edit (hk : Keyed t) (h : activate admission_id clock t = .ok (result, t')) :
    ∃ m, Expires t m ∧ Edit m t' := by
  simp only [activate, bind_ok, reservation_ok, readClock_ok, Prod.exists] at h
  obtain ⟨first, hfirst, now, _, rfl, item, hitem, h⟩ := h
  have hk' : Keyed (expire first.account_id now t) := expire_keyed hk
  have hid := hk' admission_id item hitem
  refine ⟨expire first.account_id now t, .one, ?_⟩
  split at h
  · cases h; exact .nothing
  · simp only [bind_ok, ensure_ok, decide_eq_true_eq] at h
    obtain ⟨_, hstate, _, _, _, _, evaluation, _, h⟩ := h
    split at h
    · cases h; exact .nothing
    · cases h
      exact .turn (hid ▸ hitem) (.activated hstate)

theorem cancelUnactivated_edit (hk : Keyed t)
    (h : cancelUnactivated evidence clock t = .ok (state, t')) : ∃ m, Expires t m ∧ Edit m t' := by
  simp only [cancelUnactivated, bind_ok, reservation_ok, readClock_ok, Prod.exists] at h
  obtain ⟨first, hfirst, _, _, _, _, now, _, rfl, item, hitem, h⟩ := h
  have hk' : Keyed (expire first.account_id now t) := expire_keyed hk
  have hid := hk' evidence.admission_id item hitem
  refine ⟨expire first.account_id now t, .one, ?_⟩
  split at h
  case isTrue hstate =>
    cases h
    exact .turn (hid ▸ hitem) (.cancelled hstate)
  · cases h; exact .nothing

theorem reconcile_edit (hk : Keyed t) (h : reconcile evidence clock t = .ok (state, t')) : Edit t t' := by
  simp only [reconcile, bind_ok, pure_ok, reservation_ok, ensure_ok, readClock_ok, Prod.exists,
    Prod.mk.injEq] at h
  obtain ⟨item, hitem, _, hholds, state, hstate, now, _, _, rfl, rfl⟩ := h
  have hid := hk evidence.admission_id item hitem
  exact .turn (hid ▸ hitem) (.reconciled hholds hid.symm hstate)

theorem recordFailure_edit (h : recordFailure value clock t = .ok (row, t')) : Aside t t' := by
  simp only [recordFailure, bind_ok, pure_ok, Prod.exists, Prod.mk.injEq] at h
  obtain ⟨_, _, _, _, _, rfl, rfl⟩ := h
  exact ⟨.failure, rfl⟩

theorem windowReset_ok (h : windowReset t pool_id (some window_id) = .ok reset) :
    ∃ found ∈ t.appliedTo pool_id, found.window_id = window_id ∧ found.reset_at = reset := by
  simp only [windowReset, bind_ok, need_ok, pure_ok] at h
  obtain ⟨found, hfound, rfl⟩ := h
  have hmem := List.mem_filter.mp (mem_of_getLast? hfound)
  exact ⟨found, hmem.1, by simpa using hmem.2, rfl⟩

theorem windowResets_ok
    (h : each (fun entry => (entry.1, ·) <$> windowReset t entry.1 entry.2) windows = .ok resets) :
    resets.map Prod.fst = windows.map Prod.fst := by
  induction windows generalizing resets with
  | nil => cases h; rfl
  | cons entry windows ih =>
    obtain ⟨_, rest, hfirst, hrest, rfl⟩ := each_cons_ok.mp h
    obtain ⟨reset, -, rfl⟩ := map_ok.mp hfirst
    simp [ih hrest]

theorem sameKeys_iff {keys : List String} : sameKeys keys ids = true ↔ ∀ pool_id, pool_id ∈ keys ↔ pool_id ∈ ids := by
  simp only [sameKeys, Bool.and_eq_true, all_eq_true, decide_eq_true_eq]
  exact ⟨fun h pool_id => ⟨h.1 pool_id, h.2 pool_id⟩,
    fun h => ⟨fun pool_id => (h pool_id).mp, fun pool_id => (h pool_id).mpr⟩⟩

theorem recordUsage_edit (h : recordUsage value clock t = .ok (row, t')) : Aside t t' := by
  unfold recordUsage at h
  split at h
  · simp only [bind_ok, pair_ok] at h
    obtain ⟨_, _, _, rfl⟩ := h
    exact ⟨.nothing, rfl⟩
  case h_2 hnew =>
    simp only [bind_ok, pure_ok, reservation_ok, Prod.exists, Prod.mk.injEq] at h
    obtain ⟨item, hitem, _, hreceipt, resets, hresets, recorded_at, _, _, rfl, rfl⟩ := h
    simp only [checkReceipt, bind_ok, ensure_ok, Bool.or_eq_true, Bool.and_eq_true,
      decide_eq_true_eq, sameKeys_iff] at hreceipt
    obtain ⟨_, hstate, _, ⟨hamounts, -⟩, -⟩ := hreceipt
    refine ⟨.usage (?_ : Uses t item (newUsage t value item resets recorded_at)), rfl⟩
    refine ⟨hnew, hitem, or_assoc.mp hstate, rfl, hamounts, ?_⟩
    rintro pool_id window_id hwindow
    have hentry := Dict.get?_eq_some.mp hwindow
    obtain ⟨_, hread, hmem⟩ := each_ok hresets _ hentry
    obtain ⟨reset, hreset, rfl⟩ := map_ok.mp hread
    obtain ⟨found, hfound, hid, rfl⟩ := windowReset_ok hreset
    have hnodup : (resets.map Prod.fst).Nodup := by
      rw [windowResets_ok hresets]
      exact value.window_ids.nodup
    refine ⟨found, hfound, hid, ?_⟩
    exact (Dict.get?_ofList hnodup).trans ((Dict.lookup_eq_some hnodup).mpr hmem)

theorem Concluded.reserves (hassessed : Assessed t request found) (hnew : t.reservations.get? item.id = none)
    (h : Concluded clock request w found (.standing item) rest) :
    Reserves t item found.profile found.policy found.now found.evaluation := by
  obtain ⟨hreasons, created_at, last, rfl, -⟩ := h
  refine ⟨hassessed.known, hassessed.current, ?_, hreasons, rfl, rfl, hnew, hassessed.attempt⟩
  rw [← hassessed.revision, ← hassessed.held]
  exact hassessed.evaluated

theorem admit_edit (hk : Keyed t) (h : admitAttempt request w t = .ok (decision, rest, t')) :
    ∃ m, Expires t m ∧ Edit m t' := by
  obtain ⟨found, clock, m, hassesses, hrejected | hadmitted⟩ := admit_ok hk h
  · obtain ⟨_, _, _, _, _, rfl⟩ := hrejected
    exact ⟨_, hassesses.expires, .nothing⟩
  · obtain ⟨item, hconcluded, hnew, -, rfl⟩ := hadmitted
    exact ⟨m, hassesses.expires, .reservation (hconcluded.reserves hassesses.assessed hnew)⟩

theorem apply_ok (hk : Keyed t) (h : apply w t c = .ok (result, t')) : ∃ m, Expires t m ∧ Edit m t' := by
  have hno : ∀ {t'}, Aside t t' → ∃ m, Expires t m ∧ Edit m t' := fun he => ⟨t, .refl, he.1⟩
  cases c with
  | registerPool pool => exact map_keeps h fun _ hrun => hno (registerPool_edit hrun)
  | registerProfile profile => exact map_keeps h fun _ hrun => hno (registerProfile_edit hrun)
  | observe value => exact map_keeps h fun _ hrun => hno (observe_edit hrun)
  | activatePolicy policy expected_revision => exact map_keeps h fun _ hrun => hno (activatePolicy_edit hrun)
  | updateProtection policy expected_revision => exact map_keeps h fun _ hrun => hno (updateProtection_edit hrun)
  | admitAttempt request => exact map_keeps h fun _ hrun => admit_edit hk hrun
  | activate admission_id => exact map_keeps h fun _ hrun => activate_edit hk hrun
  | cancelUnactivated evidence => exact map_keeps h fun _ hrun => cancelUnactivated_edit hk hrun
  | reconcile evidence => exact map_keeps h fun _ hrun => ⟨t, .refl, reconcile_edit hk hrun⟩
  | recordUsage value => exact map_keeps h fun _ hrun => hno (recordUsage_edit hrun)
  | recordFailure value => exact map_keeps h fun _ hrun => hno (recordFailure_edit hrun)

-- Runs

theorem Turn.same (h : Turn t item item' event) :
    item'.id = item.id ∧ item'.request = item.request ∧ item'.account_id = item.account_id := by
  cases h <;> exact ⟨rfl, rfl, rfl⟩

theorem Edit.keyed (h : Edit t t') (hk : Keyed t) : Keyed t' := by
  cases h with
  | turn hitem hturn =>
    intro k item h
    simp only [save, Dict.get?_put] at h
    split at h
    case isTrue heq => cases h; exact heq
    · exact hk k item h
  | reservation hreserves =>
    intro k item h
    rcases Dict.of_put h with ⟨heq, rfl⟩ | ⟨-, h⟩
    · exact heq
    · exact hk k item h
  | _ => exact hk

variable {s s' : State}

theorem command_ok (h : s.command L key c w = .ok (result, s')) : s' = s ∧ (s.commands.get? key).isSome = true ∨
      s.commands.get? key = none ∧ ∃ tables, apply w s.tables c = .ok (result, tables) ∧
      s' = { tables, commands := s.commands.put key ⟨L.digest c, result⟩ } := by
  simp only [State.command, bind_ok] at h
  obtain ⟨_, _, h⟩ := h
  split at h
  case h_1 original horiginal =>
    simp only [bind_ok, pair_ok] at h
    obtain ⟨_, _, _, rfl⟩ := h
    exact .inl ⟨rfl, by rw [horiginal]; rfl⟩
  case h_2 hnew =>
    simp only [bind_ok, pure_ok, Prod.exists, Prod.mk.injEq] at h
    obtain ⟨_, tables, happly, rfl, rfl⟩ := h
    exact .inr ⟨hnew, tables, happly, rfl⟩

theorem step_ok (hk : Keyed s.tables) (a : Action) : ∃ m, Expires s.tables m ∧ Edit m (s.step L a).tables := by
  unfold State.step
  split
  case h_1 result s' hcommand =>
    obtain ⟨rfl, -⟩ | ⟨-, tables, happly, rfl⟩ := command_ok hcommand
    · exact ⟨_, .refl, .nothing⟩
    · exact apply_ok hk happly
  · exact ⟨_, .refl, .nothing⟩

theorem step_keyed (hk : Keyed s.tables) : Keyed (s.step L a).tables := by
  obtain ⟨m, hexpires, hedit⟩ := step_ok hk a
  exact hedit.keyed (hexpires.keyed hk)

theorem reach_keeps {I : Tables → Prop} (hempty : I .empty)
    (hexpire : ∀ t account now, Keyed t → I t → I (expire account now t))
    (hedit : ∀ t t', Keyed t → Edit t t' → I t → I t')
    (h : (system L).Reach System.free s) : Keyed s.tables ∧ I s.tables := by
  refine h.invariant (I := fun s => Keyed s.tables ∧ I s.tables) ?_ ?_
  · rintro _ rfl
    exact ⟨fun k item h => (nomatch h), hempty⟩
  · rintro s a ⟨hk, hI⟩ -
    obtain ⟨m, hexpires, hstep⟩ := step_ok (L := L) hk a
    have hm : Keyed m ∧ I m := hexpires.keeps (I := fun t => Keyed t ∧ I t)
      (fun t account now ht => ⟨expire_keyed ht.1, hexpire t account now ht.1 ht.2⟩) ⟨hk, hI⟩
    exact ⟨hstep.keyed hm.1, hedit _ _ hm.1 hstep hm.2⟩

theorem reach_keyed (h : (system L).Reach System.free s) : Keyed s.tables :=
  (reach_keeps (I := fun _ => True) trivial (fun _ _ _ _ _ => trivial)
    (fun _ _ _ _ _ => trivial) h).1

end Karajan.Capacity

-- Pools and their accounts

namespace Karajan.Capacity

open Check
variable {t t' : Tables}

def PoolOf (t : Tables) (account_id pool_id : String) : Prop :=
  ∃ pool, t.pools.get? pool_id = some pool ∧ pool.account_id = account_id

structure Accounted (t : Tables) : Prop where
  pools : ∀ k pool, t.pools.get? k = some pool → pool.id = k
  profiles : ∀ k profile, t.profiles.get? k = some profile →
    ∀ pool_id ∈ profile.pool_ids, PoolOf t profile.account_id pool_id
  reservations : ∀ k item, t.reservations.get? k = some item →
    ∀ pool_id ∈ item.request.demand.keys, PoolOf t item.account_id pool_id
  usage : ∀ id row, t.usage.get? id = some row → row.receipt.id = id ∧
    ∀ pool_id ∈ row.receipt.amounts.keys, PoolOf t row.account_id pool_id
  observations : ∀ row ∈ t.observations, ∃ pool, t.pools.get? row.observation.pool_id = some pool

theorem Accounted.empty : Accounted .empty := by
  refine ⟨fun _ _ h => ?_, fun _ _ h => ?_, fun _ _ h => ?_, fun _ _ h => ?_, fun _ h => ?_⟩ <;>
    cases h

theorem Accounted.expire (hk : Keyed t) (h : Accounted t) : Accounted (expire account now t) := by
  have hpool : ∀ account_id pool_id, PoolOf t account_id pool_id →
      PoolOf (Capacity.expire account now t) account_id pool_id := by
    intro account_id pool_id hpool
    rw [PoolOf, expire_pools]
    exact hpool
  refine ⟨?_, ?_, ?_, ?_, ?_⟩
  · rw [expire_pools]
    exact h.pools
  · rw [expire_profiles]
    exact fun k profile hp pool_id hm => hpool _ _ (h.profiles k profile hp pool_id hm)
  · intro k item hitem pool_id hm
    rw [expire_get? hk, Option.map_eq_some_iff] at hitem
    obtain ⟨old, hold, rfl⟩ := hitem
    rw [Reservation.lapse_request] at hm
    rw [Reservation.lapse_account]
    exact hpool _ _ (h.reservations k old hold pool_id hm)
  · rw [expire_usage]
    exact fun id row hrow => ⟨(h.usage id row hrow).1,
      fun pool_id hm => hpool _ _ ((h.usage id row hrow).2 pool_id hm)⟩
  · rw [expire_observations, expire_pools]
    exact h.observations

theorem Reserves.demand (h : Reserves t item profile policy now evaluation) (pool_id : String) :
    pool_id ∈ item.request.demand.keys ↔ pool_id ∈ profile.pool_ids := by
  obtain ⟨pools, hclear, -⟩ := evaluate_clear h.evaluated h.reasons
  exact sameKeys_iff.mp hclear.demand pool_id

theorem Accounted.edit (hedit : Edit t t') (h : Accounted t) : Accounted t' := by
  cases hedit with
  | nothing => exact h
  | @pool new hnew =>
    have hpool : ∀ account_id pool_id, PoolOf t account_id pool_id →
        PoolOf { t with pools := t.pools.put new.id new } account_id pool_id :=
      fun _ _ ⟨pool, hp, haccount⟩ => ⟨pool, Dict.get?_put_new hnew hp, haccount⟩
    refine ⟨fun k pool hp => ?_, ?_, ?_, ?_, ?_⟩
    · rcases Dict.of_put hp with ⟨heq, rfl⟩ | ⟨-, hp⟩
      · exact heq
      · exact h.pools k pool hp
    · exact fun k profile hp pool_id hm => hpool _ _ (h.profiles k profile hp pool_id hm)
    · exact fun k item hitem pool_id hm => hpool _ _ (h.reservations k item hitem pool_id hm)
    · exact fun id row hrow => ⟨(h.usage id row hrow).1,
        fun pool_id hm => hpool _ _ ((h.usage id row hrow).2 pool_id hm)⟩
    · intro row hrow
      obtain ⟨pool, hp⟩ := h.observations row hrow
      exact ⟨pool, Dict.get?_put_new hnew hp⟩
  | @profile new hpools _ hnew =>
    refine ⟨h.pools, fun k profile hp pool_id hm => ?_, h.reservations, h.usage, h.observations⟩
    rcases Dict.of_put hp with ⟨-, rfl⟩ | ⟨-, hp⟩
    · exact hpools pool_id hm
    · exact h.profiles k profile hp pool_id hm
  | @observation row hobserves =>
    refine { h with observations := fun other hother => ?_ }
    rcases List.mem_append.mp hother with hother | hother
    · exact h.observations other hother
    · rw [List.mem_singleton.mp hother]
      obtain ⟨pool, hpool, -⟩ := hobserves.pool
      exact ⟨pool, hpool⟩
  | policy | failure => exact { h with }
  | @turn before after event hbefore hturn =>
    obtain ⟨hid, hrequest, haccount⟩ := hturn.same
    refine ⟨h.pools, h.profiles, fun k item hitem pool_id hm => ?_, h.usage, h.observations⟩
    simp only [save, Dict.get?_put] at hitem
    split at hitem
    · cases hitem
      rw [hrequest] at hm
      rw [haccount]
      exact h.reservations _ before hbefore pool_id hm
    · exact h.reservations k item hitem pool_id hm
  | @reservation new profile _ _ _ hreserves =>
    refine ⟨h.pools, h.profiles, fun k item hitem pool_id hm => ?_, h.usage, h.observations⟩
    rcases Dict.of_put hitem with ⟨-, rfl⟩ | ⟨-, hitem⟩
    · rw [hreserves.account]
      exact h.profiles _ profile hreserves.known pool_id ((hreserves.demand pool_id).mp hm)
    · exact h.reservations k item hitem pool_id hm
  | @usage item row huses =>
    refine ⟨h.pools, h.profiles, h.reservations, fun id other hother => ?_, h.observations⟩
    rcases Dict.of_put hother with ⟨heq, rfl⟩ | ⟨-, hother⟩
    · refine ⟨heq, fun pool_id hm => ?_⟩
      rw [huses.account]
      exact h.reservations _ item huses.reservation pool_id ((huses.pools pool_id).mp hm)
    · exact h.usage id other hother

theorem reach_accounted (h : (system L).Reach System.free s) : Accounted s.tables :=
  (reach_keeps .empty (fun _ _ _ hk => Accounted.expire hk)
    (fun _ _ _ hedit => Accounted.edit hedit) h).2

end Karajan.Capacity
