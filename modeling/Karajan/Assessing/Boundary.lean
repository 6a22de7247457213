import Karajan.Assessing.Admissible

/-!
# Facts without a claim

A reviewer is judged inside the transaction that holds its own admission. Its
quota is judged on the facts captured there, less what that admission holds: the
derived facts are those of an account that never held it, but keeps its usage.
-/

namespace Karajan.Assessing

open List Capacity Check

/-- The texts of two documents are the same where every key has the same value. -/
def sameEntries [DecidableEq ν] (d d' : Dict String ν) : Bool :=
  (d.keys ++ d'.keys).all fun k => d.get? k = d'.get? k

def sameExpected : Option ExpectedCapacity → Option ExpectedCapacity → Bool
  | some expected, some expected' => expected.policy_revision = expected'.policy_revision &&
    sameEntries expected.pool_windows expected'.pool_windows &&
    expected.lead_reserve_access = expected'.lead_reserve_access
  | none, none => true
  | _, _ => false

def sameRequest (request request' : AdmissionRequest) : Bool :=
  request.attempt_id = request'.attempt_id && request.run_id = request'.run_id &&
  request.profile_id = request'.profile_id && request.profile_revision = request'.profile_revision &&
  request.role = request'.role && request.purpose = request'.purpose &&
  request.authorization_ref = request'.authorization_ref &&
  request.rulebook_revision = request'.rulebook_revision &&
  request.duration_seconds = request'.duration_seconds && sameEntries request.demand request'.demand &&
  sameExpected request.expected_capacity request'.expected_capacity

-- Captured facts

structure AdmissionFacts where
  admission_id : String
  stored_state : ReservationState
  effective_held : Bool
  reservation : Reservation

/-- The facts of an account, with the admissions and the usage they come from. -/
structure BoundaryAccount extends AccountFacts where
  held_admission_ids : List String
  admissions : List AdmissionFacts
  usage : List UsageRow

def heldAt (t : Tables) (now : Rat) (identity : String) : List Reservation :=
  (t.reservationsOf identity).filter (effectiveHeld now)

def heldIds (held : List Reservation) : List String := (held.map Reservation.id).insertionSort (· ≤ ·)

def boundaryAccount (t : Tables) (now : Rat) (identity : String) : BoundaryAccount :=
  { accountFacts t now identity with
    held_admission_ids := heldIds (heldAt t now identity)
    admissions := (t.reservationsOf identity).map fun item => ⟨item.id, item.state, effectiveHeld now item, item⟩
    usage := t.usageOf identity }

def captureBoundary (t : Tables) (account_ids : Option (List String)) (now : Rat) :
    Except FactsError (List BoundaryAccount) := do
  let selected ← selectedAccounts t account_ids
  return selected.map (boundaryAccount t now)

-- Deriving

inductive BoundaryError
  | ownershipInvalid

/-- Take from a pool what the claim still holds of it. The amounts are exact, in millionths. -/
def releasePool (consumed : String → Nat) (pools : List PoolFacts) (entry : String × Quantity) :
    Except BoundaryError (List PoolFacts) := do
  let pool ← need (pools.find? (·.id = entry.1)) .ownershipInvalid
  let remaining := entry.2.units - consumed entry.1
  ensure (remaining ≤ pool.future_reserved) .ownershipInvalid
  return pools.map fun pool =>
    if pool.id = entry.1 then { pool with future_reserved := pool.future_reserved - remaining } else pool

def consumedOf (usage : List UsageRow) (owned pool_id : String) : Nat :=
  ((usage.filter fun row => row.receipt.admission_id = owned).map fun row =>
    quantityOf row.receipt.amounts pool_id).sum

def releaseClaim (account : BoundaryAccount) (admission : AdmissionFacts) (owned : String)
    (expected_request : AdmissionRequest) : Except BoundaryError BoundaryAccount := do
  let reservation := admission.reservation
  ensure (admission.stored_state = .active && admission.effective_held && reservation.id = owned &&
    sameRequest reservation.request expected_request && owned ∈ account.held_admission_ids &&
    0 < account.held_attempts) .ownershipInvalid
  let pools ← reservation.request.demand.entries.foldlM (releasePool (consumedOf account.usage owned)) account.pools
  return { account with
    held_attempts := account.held_attempts - 1
    held_admission_ids := account.held_admission_ids.erase owned
    pools }

def deriveCapacityBoundaryFacts (accounts : List BoundaryAccount) (owned_admission_id : Option String)
    (expected_request : AdmissionRequest) : Except BoundaryError (List BoundaryAccount) :=
  match owned_admission_id with
  | none => .ok accounts
  | some owned =>
    match accounts.flatMap fun account =>
      (account.admissions.filter (·.admission_id = owned)).map fun admission => (account, admission) with
    | [(account, admission)] => do
      let derived ← releaseClaim account admission owned expected_request
      return accounts.map fun other => if other.id = account.id then derived else other
    | _ => .error .ownershipInvalid

/-- The facts of an account, were these its held reservations: what was used stays used. -/
def holding (t : Tables) (held : List Reservation) (account : BoundaryAccount) : BoundaryAccount :=
  { account with
    held_attempts := held.length
    held_admission_ids := heldIds held
    pools := account.pools.map fun pool =>
      { pool with future_reserved := futureUsage (t.usageOf pool.account_id) pool.id held } }

-- The claim taken out

variable {held : List Reservation}

theorem holding_all : holding t (heldAt t now identity) (boundaryAccount t now identity) =
    boundaryAccount t now identity := by
  simp [holding, boundaryAccount, accountFacts, heldAt, poolFacts, Function.comp_def]

theorem sameRequest_self (request : AdmissionRequest) : sameRequest request request = true := by
  cases hexpected : request.expected_capacity <;> simp [sameRequest, sameEntries, sameExpected, hexpected]

theorem heldAt_nodup (hk : Keyed t) : ((heldAt t now identity).map Reservation.id).Nodup := by
  have hids : t.reservations.values.map Reservation.id = t.reservations.keys := by
    rw [Dict.values, Dict.keys, map_map]
    exact map_congr_left fun e he => hk e.1 e.2 (Dict.get?_eq_some.mpr he)
  refine List.Nodup.sublist ((List.filter_sublist.trans filter_sublist).map _) ?_
  rw [hids]
  exact t.reservations.nodup

section
variable (hids : (held.map Reservation.id).Nodup) (hm : item ∈ held)
include hids hm

theorem held_without :
    held.Perm (item :: held.filter (·.id ≠ item.id)) := by
  induction held with
  | nil => cases hm
  | cons first held ih =>
    obtain ⟨hfirst, hids⟩ := List.nodup_cons.mp hids
    have hne : ∀ other ∈ held, other.id ≠ first.id := fun other hother heq =>
      hfirst (heq ▸ mem_map_of_mem hother)
    rcases List.mem_cons.mp hm with rfl | hm
    · rw [filter_cons_of_neg (by simp), List.filter_eq_self.mpr (by simpa using hne)]
    · rw [filter_cons_of_pos (by simpa using (hne item hm).symm)]
      exact ((ih hids hm).cons first).trans (.swap item first _)

theorem heldIds_without :
    (heldIds held).erase item.id = heldIds (held.filter (·.id ≠ item.id)) := by
  have hperm := (held_without hids hm).map Reservation.id
  rw [map_cons] at hperm
  refine List.Perm.eq_of_pairwise' ((pairwise_insertionSort _ _).sublist erase_sublist)
    (pairwise_insertionSort _ _) ?_
  refine (((perm_insertionSort _ _).trans hperm).erase item.id).trans ?_
  rw [erase_cons_head]
  exact (perm_insertionSort _ _).symm

theorem futureUsage_without :
    futureUsage all_usage pool_id held =
      (quantityOf item.request.demand pool_id - recordedUsage all_usage pool_id item) +
        futureUsage all_usage pool_id (held.filter (·.id ≠ item.id)) := by
  rw [futureUsage, ((held_without hids hm).map _).sum_eq]
  simp [futureUsage]

end

/-- The demand takes from each of its pools what of it is not consumed, and nothing from the others. -/
theorem releasePools {entries : List (String × Quantity)}
    (hkeys : (entries.map Prod.fst).Nodup) (hpools : ∀ e ∈ entries, ∃ pool ∈ pools, pool.id = e.1)
    (hroom : ∀ e ∈ entries, ∀ pool ∈ pools, pool.id = e.1 → e.2.units - consumed e.1 ≤ pool.future_reserved) :
    entries.foldlM (releasePool consumed) pools = .ok (pools.map fun pool => { pool with future_reserved :=
      pool.future_reserved - (((Dict.lookup pool.id entries).map Quantity.units).getD 0 - consumed pool.id) }) := by
  induction entries generalizing pools with
  | nil => simp [Dict.lookup, pure, Except.pure]
  | cons e entries ih =>
    obtain ⟨hnew, hkeys⟩ := List.nodup_cons.mp hkeys
    obtain ⟨pool, hpool, hid⟩ := hpools e (by simp)
    cases hfound : pools.find? (·.id = e.1) with
    | none => exact absurd hid (by simpa using find?_eq_none.mp hfound pool hpool)
    | some found =>
      have hfits := hroom e (by simp) found (mem_of_find?_eq_some hfound) (by simpa using find?_some hfound)
      have hstep : releasePool consumed pools e = .ok (pools.map fun pool => if pool.id = e.1 then
          { pool with future_reserved := pool.future_reserved - (e.2.units - consumed e.1) } else pool) := by
        simp [releasePool, hfound, need, ensure, hfits, pure, Except.pure, bind, Except.bind]
      have hother : ∀ e' ∈ entries, e'.1 ≠ e.1 := fun e' he' heq => hnew (heq ▸ mem_map_of_mem he')
      rw [foldlM_cons, hstep, ok_bind, ih hkeys]
      · rw [map_map]
        refine congrArg _ (map_congr_left fun pool _ => ?_)
        by_cases hid : pool.id = e.1
        · have hnone : Dict.lookup e.1 entries = none := Dict.lookup_eq_none.mpr hnew
          simp [hid, Dict.lookup, hnone]
        · simp [hid, Dict.lookup, Ne.symm hid]
      · intro e' he'
        obtain ⟨pool, hpool, hid⟩ := hpools e' (mem_cons_of_mem _ he')
        exact ⟨_, mem_map_of_mem hpool, by split <;> exact hid⟩
      · intro e' he' pool' hpool' hid'
        obtain ⟨pool, hpool, rfl⟩ := List.mem_map.mp hpool'
        by_cases hid : pool.id = e.1
        · simp only [hid, if_true] at hid'
          exact absurd hid'.symm (hother e' he')
        · rw [if_neg hid] at hid' ⊢
          exact hroom e' (mem_cons_of_mem _ he') pool hpool hid'

theorem reservationsOf_id (hk : Keyed t) (hitem : t.reservations.get? a = some item) :
    ((t.reservationsOf identity).filter fun item => item.id = a) =
      if identity = item.account_id then [item] else [] := by
  rw [Tables.reservationsOf, filter_comm, values_filter_id hk, hitem]
  by_cases hid : identity = item.account_id <;> simp [hid, Ne.symm]

/-- The account that holds the claim loses it, and what it still holds of its pools. -/
theorem releaseClaim_ok (hk : Keyed t) (ha : Accounted t) (hitem : t.reservations.get? a = some item)
    (hactive : item.state = .active) :
    releaseClaim (boundaryAccount t now item.account_id) ⟨item.id, item.state, effectiveHeld now item, item⟩ a
        item.request =
      .ok (holding t ((heldAt t now item.account_id).filter (·.id ≠ a)) (boundaryAccount t now item.account_id)) := by
  obtain rfl := hk a item hitem
  have hm : item ∈ heldAt t now item.account_id := by
    simp only [heldAt, Tables.reservationsOf, mem_filter, Dict.mem_values, decide_true, and_true]
    exact ⟨⟨_, hitem⟩, by simp [effectiveHeld, hactive]⟩
  have hids : ((heldAt t now item.account_id).map Reservation.id).Nodup := heldAt_nodup hk
  have hfacts : ∀ fact ∈ (boundaryAccount t now item.account_id).pools, fact.account_id = item.account_id ∧
      fact.future_reserved = futureUsage (t.usageOf item.account_id) fact.id (heldAt t now item.account_id) := by
    intro fact hfact
    obtain ⟨pool, -, haccount, rfl⟩ := mem_accountPools.mp hfact
    exact ⟨haccount, by rw [← haccount]; rfl⟩
  have hrelease : item.request.demand.entries.foldlM
      (releasePool (consumedOf (t.usageOf item.account_id) item.id)) (boundaryAccount t now item.account_id).pools = _ :=
    releasePools item.request.demand.nodup
      (fun e he => by
        obtain ⟨pool, hpool, haccount⟩ := ha.reservations _ item hitem e.1 (mem_map_of_mem he)
        exact ⟨_, mem_accountPools.mpr ⟨pool, Dict.mem_values.mpr ⟨_, hpool⟩, haccount, rfl⟩, ha.pools _ _ hpool⟩)
      fun e he fact hfact hid => by
        have hunits : quantityOf item.request.demand e.1 = e.2.units := by
          rw [quantityOf, Dict.get?_eq_some.mpr he]
          rfl
        rw [(hfacts fact hfact).2, hid, futureUsage_without hids hm, hunits]
        exact Nat.le_add_right _ _
  have hmember : item.id ∈ heldIds (heldAt t now item.account_id) := by
    simp only [heldIds, mem_insertionSort]
    exact mem_map_of_mem hm
  have hlength := (held_without hids hm).length_eq
  have hchecks : (item.state = .active && effectiveHeld now item && item.id = item.id &&
      sameRequest item.request item.request && item.id ∈ heldIds (heldAt t now item.account_id) &&
      0 < (heldAt t now item.account_id).length) = true := by
    simp [hactive, sameRequest_self, hmember, effectiveHeld, hlength]
  refine bind_ok.mpr ⟨(), ensure_ok.mpr hchecks, bind_ok.mpr ⟨_, hrelease, pure_ok.mpr ?_⟩⟩
  have hpools : ∀ fact ∈ (boundaryAccount t now item.account_id).pools,
      fact.future_reserved - (quantityOf item.request.demand fact.id -
        consumedOf (t.usageOf item.account_id) item.id fact.id) =
      futureUsage (t.usageOf fact.account_id) fact.id ((heldAt t now item.account_id).filter (·.id ≠ item.id)) := by
    intro fact hfact
    rw [(hfacts fact hfact).2, (hfacts fact hfact).1, futureUsage_without hids hm]
    exact Nat.add_sub_cancel_left ..
  have hattempts : (boundaryAccount t now item.account_id).held_attempts - 1 =
      ((heldAt t now item.account_id).filter (·.id ≠ item.id)).length := Nat.sub_eq_of_eq_add hlength
  rw [holding, ← heldIds_without hids hm, ← hattempts]
  congr 2
  exact map_congr_left fun fact hfact => by rw [← hpools fact hfact]; rfl

theorem flatMap_only [DecidableEq α] {l : List α} {f : α → β} (hl : l.Nodup) (hm : a ∈ l) :
    (l.flatMap fun b => if b = a then [f b] else []) = [f a] := by
  induction l with
  | nil => cases hm
  | cons b l ih =>
    obtain ⟨hnew, hl⟩ := List.nodup_cons.mp hl
    rcases List.mem_cons.mp hm with rfl | hm
    · have hrest : ∀ c ∈ l, c ≠ a := fun c hc heq => hnew (heq ▸ hc)
      simpa using hrest
    · have hne : b ≠ a := fun heq => hnew (heq ▸ hm)
      simpa [hne] using ih hl hm

theorem capture_selected (h : captureBoundary t account_ids now = .ok facts) :
    ∃ selected : List String, selected.Nodup ∧ facts = selected.map (boundaryAccount t now) := by
  simp only [captureBoundary, bind_ok, pure_ok] at h
  obtain ⟨selected, hselected, rfl⟩ := h
  refine ⟨selected, ?_, rfl⟩
  cases account_ids with
  | none =>
    obtain rfl := pure_ok.mp hselected
    exact Listing.nodup_sortedSet
  | some account_ids =>
    simp only [selectedAccounts, bind_ok, pure_ok] at hselected
    obtain ⟨-, -, -, -, rfl⟩ := hselected
    exact Listing.nodup_sortedSet


/-- The derived facts are the captured ones with the claim taken out of what its account holds. -/
theorem boundary_excludes {C : Library} {s : State} (h : (system C).Reach System.free s)
    (hcapture : captureBoundary s.tables account_ids now = .ok facts)
    (hitem : s.tables.reservations.get? a = some item) (hactive : item.state = .active)
    (hcaptured : ∃ account ∈ facts, account.id = item.account_id) :
    (∀ account ∈ facts, account = holding s.tables (heldAt s.tables now account.id) account) ∧
    deriveCapacityBoundaryFacts facts (some a) item.request = .ok (facts.map fun account =>
      if account.id = item.account_id then
        holding s.tables ((heldAt s.tables now account.id).filter (·.id ≠ a)) account else account) := by
  obtain ⟨selected, hnodup, rfl⟩ := capture_selected hcapture
  have hk : Keyed s.tables := reach_keyed h
  have hm : item.account_id ∈ selected := by
    obtain ⟨_, haccount, hid⟩ := hcaptured
    obtain ⟨identity, hm, rfl⟩ := List.mem_map.mp haccount
    have hsame : identity = item.account_id := hid
    exact hsame ▸ hm
  have hmatches : ((selected.map (boundaryAccount s.tables now)).flatMap fun account =>
      (account.admissions.filter (·.admission_id = a)).map fun admission => (account, admission)) =
      [(boundaryAccount s.tables now item.account_id,
        (⟨item.id, item.state, effectiveHeld now item, item⟩ : AdmissionFacts))] := by
    rw [flatMap_map]
    refine (flatMap_congr fun identity _ => ?_).trans (flatMap_only (f := fun identity =>
      (boundaryAccount s.tables now identity, _)) hnodup hm)
    simp only [boundaryAccount, filter_map, Function.comp_def, reservationsOf_id hk hitem]
    split <;> rfl
  refine ⟨fun account haccount => ?_, ?_⟩
  · obtain ⟨identity, -, rfl⟩ := List.mem_map.mp haccount
    exact holding_all.symm
  · simp only [deriveCapacityBoundaryFacts, hmatches]
    refine bind_ok.mpr ⟨_, releaseClaim_ok hk (reach_accounted h) hitem hactive, pure_ok.mpr ?_⟩
    rw [map_map, map_map]
    refine map_congr_left fun identity _ => ?_
    by_cases hid : identity = item.account_id
    · subst hid
      rfl
    · have hother : ¬ (boundaryAccount s.tables now identity).id = item.account_id := hid
      simp only [Function.comp_apply, if_neg hother]
      exact if_neg hid

/-- The attempt is activated, and the account is its own once its claim is taken out. -/
def Sample.activated : State :=
  (system sampleLibrary).run State.empty
    (Capacity.sampleActions.take 5 ++ [⟨"7", .activate "r", Capacity.sampleWorld [14] ""⟩])

open Sample (activated)

theorem boundary_excludes_sample : ∃ item derived, activated.tables.reservations.get? "r" = some item ∧
    deriveCapacityBoundaryFacts [boundaryAccount activated.tables 15 "a"] (some "r") item.request =
      .ok derived ∧ derived.map (·.held_attempts) = [0] := by
  have hstate : (activated.tables.reservations.get? "r").map (fun item => (item.state, item.account_id)) =
      some (.active, "a") := by decide +kernel
  have hnone : ((heldAt activated.tables 15 "a").filter (·.id ≠ "r")).length = 0 := by decide +kernel
  obtain ⟨item, hitem, hfacts⟩ := Option.map_eq_some_iff.mp hstate
  simp only [Prod.mk.injEq] at hfacts
  obtain ⟨hactive, haccount⟩ := hfacts
  have hreach : (system sampleLibrary).Reach System.free activated :=
    ⟨_, rfl, .of_free_run⟩
  have hcapture : captureBoundary activated.tables none 15 =
      .ok [boundaryAccount activated.tables 15 "a"] := by
    have hknown : knownAccounts activated.tables = ["a"] := by decide +kernel
    simp [captureBoundary, selectedAccounts, hknown]
  obtain ⟨-, hderived⟩ := boundary_excludes hreach hcapture hitem hactive ⟨_, mem_singleton_self _, haccount.symm⟩
  refine ⟨item, _, hitem, hderived, ?_⟩
  have hown : (boundaryAccount activated.tables 15 "a").id = item.account_id := haccount.symm
  rw [map_singleton, map_singleton, if_pos hown]
  exact congrArg (fun n => [n]) hnone

end Karajan.Assessing
