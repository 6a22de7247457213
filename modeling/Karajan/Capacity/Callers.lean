import Karajan.Capacity.Lifecycle

/-!
# The store among its callers

Callers send commands one after another and read what was answered before. The
clock that the store reads does not go back, so that a reservation whose time
has passed, or which was given up, holds no capacity from then on, whatever
command comes.
-/

namespace Karajan.Capacity

open Dict Check

structure Clocked where
  state : State
  time : Rat

def Clock.after : (time : Rat) → Clock → Clock
  | _, [] => []
  | time, none :: rest => none :: after time rest
  | time, some now :: rest => some (max time now) :: after (max time now) rest

def Clock.latest (time : Rat) (clock : Clock) : Rat := (clock.filterMap id).foldl max time

namespace Clocked

variable (L : Library)

def row (s : Clocked) (key : String) : Option CommandRow := s.state.commands.get? key

def item (s : Clocked) (k : String) : Option Reservation := s.state.tables.reservations.get? k

def send (command_key : String) (c : Command) (w : World) (s : Clocked) : Except CapacityError Result × Clocked :=
  let clock := w.clock.after s.time
  match s.state.command L command_key c { w with clock } with
  | .ok (result, state) => (.ok result, ⟨state, clock.latest s.time⟩)
  | .error e => (.error e, { s with time := clock.latest s.time })

def commandReceipt (s : Clocked) (command_key : String) (c : Command) : Except CapacityError (Option Result) :=
  match s.row command_key with
  | none => .ok none
  | some original => do
    ensure (original.digest = L.digest c) .idempotencyConflict
    return some original.result

end Clocked

structure AdmissionFacts where
  stored_state : ReservationState
  expired_unsent : Bool
  reservation : Reservation

structure Facts where
  captured_at : Rat
  admission : Option AdmissionFacts

/-- Facts are listed by account, of the accounts that have pools or policies. -/
def Tables.known (t : Tables) (account_id : String) : Bool :=
  t.pools.values.any (·.account_id = account_id) || t.policies.contains account_id

def Clocked.routingFacts (admission_id : String) (reading : Option Rat) (s : Clocked) :
    Except CapacityError Facts × Clocked :=
  match reading with
  | none => (.error .clockUnavailable, s)
  | some reading =>
    let now := max s.time reading
    let known := (s.item admission_id).filter fun item => s.state.tables.known item.account_id
    let facts : Facts := {
      captured_at := now
      admission := known.map fun item => ⟨item.state, item.lapsed now, item⟩ }
    (.ok facts, { s with time := now })

-- Rows that nothing is held by

variable {t t' m : Tables}

/-- The reservation occupies nothing at the time, and will not any more. -/
def Reservation.unheld (item : Reservation) (now : Rat) : Prop :=
  item.state.holds = false ∨ item.lapsed now = true

def Tables.Unheld (t : Tables) (now : Rat) (k : String) : Prop :=
  ∃ item, t.reservations.get? k = some item ∧ item.unheld now

open Reservation (unheld lapsed_mono lapsed_reserved lapse cancelled)

theorem Reservation.unheld_mono {item : Reservation} (h : item.unheld now) (hle : now ≤ later) :
    item.unheld later := h.imp_right fun hlapsed => lapsed_mono hlapsed hle

theorem Tables.Unheld.congr (h : t.Unheld now k) (hsame : t'.reservations = t.reservations) :
    t'.Unheld now k := by
  unfold Tables.Unheld at h ⊢
  rwa [hsame]

theorem Tables.Unheld.expires (h : t.Unheld now k) (hk : Keyed t) (he : Expires t m) : m.Unheld now k := by
  obtain ⟨item, hitem, hunheld⟩ := h
  cases expires_lapses he hk hitem with
  | kept hkept _ => exact ⟨item, hkept, hunheld⟩
  | expired _ hexpired _ _ => exact ⟨item.expire, hexpired, .inl rfl⟩

theorem Tables.Unheld.save (h : t.Unheld now k)
    (hitem : item.id = k → item.unheld now) : (save item event t).Unheld now k := by
  by_cases hid : item.id = k
  · exact ⟨item, by simp [Capacity.save, hid], hitem hid⟩
  · obtain ⟨old, hold, hunheld⟩ := h
    exact ⟨old, by simp [Capacity.save, get?_put_of_ne hid, hold], hunheld⟩

theorem apply_reservations (h : apply w t c = .ok (result, t')) :
    (∃ request, c = .admitAttempt request) ∨ (∃ k, c = .activate k) ∨
      (∃ evidence, c = .cancelUnactivated evidence) ∨ (∃ evidence, c = .reconcile evidence) ∨
      t'.reservations = t.reservations := by
  cases c with
  | admitAttempt request => exact .inl ⟨request, rfl⟩
  | activate k => exact .inr (.inl ⟨k, rfl⟩)
  | cancelUnactivated evidence => exact .inr (.inr (.inl ⟨evidence, rfl⟩))
  | reconcile evidence => exact .inr (.inr (.inr (.inl ⟨evidence, rfl⟩)))
  | registerPool pool =>
    exact map_keeps h fun _ hrun => .inr (.inr (.inr (.inr (registerPool_edit hrun).2)))
  | registerProfile profile =>
    exact map_keeps h fun _ hrun => .inr (.inr (.inr (.inr (registerProfile_edit hrun).2)))
  | observe value => exact map_keeps h fun _ hrun => .inr (.inr (.inr (.inr (observe_edit hrun).2)))
  | activatePolicy policy expected_revision =>
    exact map_keeps h fun _ hrun => .inr (.inr (.inr (.inr (activatePolicy_edit hrun).2)))
  | updateProtection policy expected_revision =>
    exact map_keeps h fun _ hrun => .inr (.inr (.inr (.inr (updateProtection_edit hrun).2)))
  | recordUsage value =>
    exact map_keeps h fun _ hrun => .inr (.inr (.inr (.inr (recordUsage_edit hrun).2)))
  | recordFailure value =>
    exact map_keeps h fun _ hrun => .inr (.inr (.inr (.inr (recordFailure_edit hrun).2)))

section
variable (hk : Keyed t)
include hk

theorem admit_unheld (h : admitAttempt request w t = .ok (decision, rest, t'))
    (hu : t.Unheld now k) : t'.Unheld now k := by
  obtain ⟨found, clock, m, hassesses, hrejected | hadmitted⟩ := admit_ok hk h
  · obtain ⟨_, _, _, _, _, rfl⟩ := hrejected
    exact hu.expires hk hassesses.expires
  · obtain ⟨item, -, hnew, -, rfl⟩ := hadmitted
    obtain ⟨old, hold, hunheld⟩ := hu.expires hk hassesses.expires
    exact ⟨old, get?_put_new hnew hold, hunheld⟩

theorem activate_unheld (h : activate k' clock t = .ok (result, t'))
    (hclock : ∀ r, some r ∈ clock → now ≤ r) (hu : t.Unheld now k) : t'.Unheld now k := by
  simp only [activate, bind_ok, reservation_ok, readClock_ok, Prod.exists] at h
  obtain ⟨first, hfirst, time, _, rfl, item, hitem, h⟩ := h
  have hle : now ≤ time := hclock time (by simp)
  have hm := hu.expires hk (.one : Expires t (expire first.account_id time t))
  split at h
  · cases h; exact hm
  · simp only [bind_ok, ensure_ok, decide_eq_true_eq] at h
    obtain ⟨_, hstate, _, _, _, _, evaluation, _, h⟩ := h
    split at h
    · cases h; exact hm
    · cases h
      refine hm.save fun hid => ?_
      -- The reservation is the one that is activated, so it had not lapsed at the time that was read.
      have hid : k' = k := (expire_keyed hk k' item hitem).symm.trans hid
      subst hid
      obtain ⟨old, hold, hunheld⟩ := hu
      cases hfirst.symm.trans hold
      rw [expire_get? hk, hfirst, Option.map_some, Option.some.injEq] at hitem
      rcases hunheld with hsettled | hlapsed
      · have hkept : first.lapse first.account_id time = first := by
          refine if_neg fun hl => ?_
          rw [lapsed_reserved hl.2] at hsettled
          cases hsettled
        rw [← hitem, hkept] at hstate
        rw [hstate] at hsettled
        cases hsettled
      · rw [← hitem, lapse, if_pos ⟨rfl, lapsed_mono hlapsed hle⟩] at hstate
        cases hstate

theorem cancelUnactivated_unheld (h : cancelUnactivated evidence clock t = .ok (state, t')) (now : Rat) :
    (t.Unheld now k → t'.Unheld now k) ∧ t'.Unheld now evidence.admission_id := by
  simp only [cancelUnactivated, bind_ok, ensure_ok, reservation_ok, readClock_ok, Prod.exists] at h
  obtain ⟨first, hfirst, _, _, _, hstate, time, _, rfl, item, hitem, h⟩ := h
  have hexpires : Expires t (expire first.account_id time t) := .one
  have hid : item.id = evidence.admission_id := expire_keyed hk _ item hitem
  split at h
  · cases h
    refine ⟨fun hu => (hu.expires hk hexpires).save fun _ => .inl rfl, ?_⟩
    exact ⟨item.cancelled evidence, by simp [save, cancelled, hid], .inl rfl⟩
  case isFalse hne =>
    cases h
    refine ⟨fun hu => hu.expires hk hexpires, item, hitem, .inl ?_⟩
    -- What is no longer reserved had lapsed, or was expired before.
    rw [expire_get? hk, hfirst, Option.map_some, Option.some.injEq] at hitem
    subst hitem
    unfold lapse at hne ⊢
    split
    · rfl
    case isFalse hkept =>
      rw [if_neg hkept] at hne
      simp only [Bool.or_eq_true, decide_eq_true_eq] at hstate
      rcases hstate with hreserved | hexpired
      · exact absurd hreserved hne
      · rw [hexpired]
        rfl

theorem reconcile_unheld (h : reconcile evidence clock t = .ok (state, t'))
    (hu : t.Unheld now k) : t'.Unheld now k := by
  simp only [reconcile, bind_ok, pure_ok, reservation_ok, ensure_ok, readClock_ok, Prod.exists,
    Prod.mk.injEq] at h
  obtain ⟨item, hitem, _, hholds, state', hstate, time, _, _, rfl, rfl⟩ := h
  refine hu.save fun hid => .inl ?_
  have hid : evidence.admission_id = k := (hk _ item hitem).symm.trans hid
  subst hid
  obtain ⟨old, hold, hunheld⟩ := hu
  cases hitem.symm.trans hold
  rcases hunheld with hsettled | hlapsed
  · rw [hholds] at hsettled
    cases hsettled
  · obtain ⟨rfl, -⟩ | ⟨hne, -⟩ := reconciledState_ok hstate
    · rfl
    · exact absurd (lapsed_reserved hlapsed) hne

theorem apply_unheld (h : apply w t c = .ok (result, t'))
    (hclock : ∀ r, some r ∈ w.clock → now ≤ r) (hu : t.Unheld now k) : t'.Unheld now k := by
  rcases apply_reservations h with ⟨request, rfl⟩ | ⟨k', rfl⟩ | ⟨evidence, rfl⟩ | ⟨evidence, rfl⟩ | hsame
  · obtain ⟨⟨_, _, _⟩, hrun, heq⟩ := map_ok.mp h
    cases heq
    exact admit_unheld hk hrun hu
  · obtain ⟨⟨_, _⟩, hrun, heq⟩ := map_ok.mp h
    cases heq
    exact activate_unheld hk hrun hclock hu
  · obtain ⟨⟨_, _⟩, hrun, heq⟩ := map_ok.mp h
    cases heq
    exact (cancelUnactivated_unheld hk hrun now).1 hu
  · obtain ⟨⟨_, _⟩, hrun, heq⟩ := map_ok.mp h
    cases heq
    exact reconcile_unheld hk hrun hu
  · exact hu.congr hsame

end

def CommandRow.Admits (row : CommandRow) (decision : Decision) (k : String) : Prop :=
  row.result = .decided decision ∧ decision.admission_id = some k

section
variable (hk : Keyed t)
include hk

theorem apply_fate (h : apply w t c = .ok (result, t'))
    (hitem : t.reservations.get? k = some item) : Fate t t' k item := by
  obtain ⟨m, hexpires, hedit⟩ := apply_ok hk h
  exact expires_edit_fate hk hexpires hedit hitem

theorem apply_keyed (h : apply w t c = .ok (result, t')) : Keyed t' := by
  obtain ⟨m, hexpires, hedit⟩ := apply_ok hk h
  exact hedit.keyed (hexpires.keyed hk)

theorem apply_decided (h : apply w t c = .ok (.decided decision, t'))
    (hadmitted : decision.admission_id = some k) :
    c = .admitAttempt decision.request ∧ t.reservations.get? k = none ∧
      ∃ item, t'.reservations.get? k = some item ∧ item.request = decision.request := by
  cases c with
  | admitAttempt request =>
    obtain ⟨⟨decision', rest, m'⟩, hrun, heq⟩ := map_ok.mp h
    cases heq
    obtain ⟨found, clock, m, hassesses, hrejected | hstanding⟩ := admit_ok hk hrun
    · obtain ⟨_, _, _, _, rfl, _⟩ := hrejected
      cases hadmitted
    · obtain ⟨item, ⟨-, created_at, last, rfl, -⟩, hnew, rfl, rfl⟩ := hstanding
      cases hadmitted
      refine ⟨rfl, ?_, _, get?_put_self, rfl⟩
      cases hold : t.reservations.get? w.identity with
      | none => exact hold
      | some old =>
        cases expires_lapses hassesses.expires hk hold with
        | kept hitem _ => exact absurd (hitem.symm.trans hnew) (by simp)
        | expired _ hitem _ _ => exact absurd (hitem.symm.trans hnew) (by simp)
  | registerPool | registerProfile | observe | activatePolicy | updateProtection | activate
  | cancelUnactivated | reconcile | recordUsage | recordFailure =>
    obtain ⟨_, _, heq⟩ := map_ok.mp h
    cases heq

theorem apply_admit (h : apply w t (.admitAttempt request) = .ok (result, t')) :
    ∃ decision, result = .decided decision ∧ decision.request = request := by
  obtain ⟨⟨decision, rest, m'⟩, hrun, heq⟩ := map_ok.mp h
  cases heq
  refine ⟨decision, rfl, ?_⟩
  obtain ⟨found, clock, m, -, ⟨_, _, _, _, rfl, _⟩ | ⟨_, _, _, rfl, _⟩⟩ := admit_ok hk hrun <;> rfl

theorem apply_activate (h : apply w t (.activate k) = .ok (result, t')) :
    ∃ activation, result = .activation activation ∧ (activation.reason_codes = [] →
      (∃ item, t.reservations.get? k = some item ∧ item.state = .reserved) ∧
      ∃ item, t'.reservations.get? k = some item ∧ item.state = .active) := by
  obtain ⟨⟨activation, m'⟩, hrun, heq⟩ := map_ok.mp h
  cases heq
  refine ⟨activation, rfl, fun hnone => ?_⟩
  simp only [activate, bind_ok, reservation_ok, readClock_ok, Prod.exists] at hrun
  obtain ⟨first, hfirst, time, _, -, item, hitem, hrun⟩ := hrun
  split at hrun
  · cases hrun
    cases hnone
  · simp only [bind_ok, ensure_ok, decide_eq_true_eq] at hrun
    obtain ⟨_, hstate, _, _, _, _, evaluation, _, hrun⟩ := hrun
    have hid : item.id = k := expire_keyed hk k item hitem
    split at hrun
    case isTrue hreasons =>
      cases hrun
      exact absurd hnone hreasons
    · cases hrun
      subst hid
      refine ⟨⟨first, hfirst, ?_⟩, _, get?_put_self, rfl⟩
      rw [expire_get? hk, hfirst, Option.map_some, Option.some.injEq] at hitem
      rw [← hitem, lapse] at hstate
      split at hstate
      · cases hstate
      · exact hstate

theorem apply_cancel (h : apply w t (.cancelUnactivated evidence) = .ok (result, t'))
    (now : Rat) : (∃ state, result = .state state) ∧ t'.Unheld now evidence.admission_id := by
  obtain ⟨⟨state, m'⟩, hrun, heq⟩ := map_ok.mp h
  cases heq
  exact ⟨⟨state, rfl⟩, (cancelUnactivated_unheld (k := evidence.admission_id) hk hrun now).2⟩

end

theorem Next.spent (h : Next before after) : after ≠ .reserved := by cases h <;> simp

-- Sending

theorem Clock.after_floor (time : Rat) (clock : Clock) : ∀ r, some r ∈ clock.after time → time ≤ r := by
  induction clock generalizing time with
  | nil => simp [Clock.after]
  | cons reading rest ih =>
    intro r hr
    cases reading with
    | none =>
      simp only [Clock.after, List.mem_cons, reduceCtorEq, false_or] at hr
      exact ih time r hr
    | some now =>
      simp only [Clock.after, List.mem_cons, Option.some.injEq] at hr
      rcases hr with rfl | hr
      · exact le_max_left _ _
      · exact le_trans (le_max_left _ _) (ih _ r hr)

theorem le_foldl_max (time : Rat) (l : List Rat) : time ≤ l.foldl max time := by
  induction l generalizing time with
  | nil => exact le_refl _
  | cons r l ih => exact le_trans (le_max_left time r) (ih _)

namespace Clocked

variable {s s' s'' : Clocked}

theorem send_time (s : Clocked) : s.time ≤ (s.send L key c w).2.time := by
  unfold send
  dsimp only
  split <;> exact le_foldl_max _ _

theorem send_ok (h : s.send L key c w = (.ok result, s')) :
    (∃ row, s.row key = some row ∧ row.result = result ∧ s'.state = s.state) ∨
      s.row key = none ∧ ∃ clock tables, (∀ r, some r ∈ clock → s.time ≤ r) ∧
        apply { w with clock } s.state.tables c = .ok (result, tables) ∧
        s'.state = { tables, commands := s.state.commands.put key ⟨L.digest c, result⟩ } := by
  unfold send at h
  dsimp only at h
  split at h
  case h_2 => cases h
  case h_1 result' state' hcommand =>
    cases h
    simp only [State.command, bind_ok] at hcommand
    obtain ⟨_, _, hcommand⟩ := hcommand
    split at hcommand
    case h_1 original horiginal =>
      simp only [bind_ok, pair_ok] at hcommand
      obtain ⟨_, _, rfl, rfl⟩ := hcommand
      exact .inl ⟨original, horiginal, rfl, rfl⟩
    case h_2 hnew =>
      simp only [bind_ok, pure_ok, Prod.exists, Prod.mk.injEq] at hcommand
      obtain ⟨_, tables, happly, rfl, rfl⟩ := hcommand
      exact .inr ⟨hnew, _, tables, Clock.after_floor _ _, happly, rfl⟩

theorem send_error (h : s.send L key c w = (.error e, s')) : s'.state = s.state := by
  unfold send at h
  dsimp only at h
  split at h
  · cases h
  · cases h; rfl

theorem send_row (h : s.send L key c w = (.ok result, s')) :
    ∃ row, s'.row key = some row ∧ row.result = result := by
  rcases send_ok h with ⟨row, hrow, hresult, hsame⟩ | ⟨-, clock, tables, -, -, hstate⟩
  · exact ⟨row, by rw [Clocked.row, hsame]; exact hrow, hresult⟩
  · exact ⟨⟨L.digest c, result⟩, by simp [Clocked.row, hstate], rfl⟩

theorem send_other (s : Clocked) (h : key ≠ key') : (s.send L key c w).2.row key' = s.row key' := by
  rcases hsend : s.send L key c w with ⟨r, s'⟩
  cases r with
  | error e => rw [Clocked.row, send_error hsend]; rfl
  | ok result =>
    rcases send_ok hsend with ⟨_, -, -, hsame⟩ | ⟨-, clock, tables, -, -, hstate⟩
    · rw [Clocked.row, hsame]
      rfl
    · simp [Clocked.row, hstate, get?_put_of_ne h]

-- What goes on

def Unheld (s : Clocked) (k : String) : Prop := s.state.tables.Unheld s.time k

/-- What every later state of the store keeps of an earlier one. -/
structure Later (s s' : Clocked) : Prop where
  time : s.time ≤ s'.time
  rows : ∀ key row, s.row key = some row → s'.row key = some row
  requests : ∀ k item, s.item k = some item → ∃ item', s'.item k = some item' ∧ item'.request = item.request
  unheld : ∀ k, s.Unheld k → s'.Unheld k
  spent : ∀ k item, s.item k = some item → item.state ≠ .reserved →
    ∃ item', s'.item k = some item' ∧ item'.state ≠ .reserved

theorem Later.refl (s : Clocked) : s.Later s where
  time := le_refl _
  rows _ _ h := h
  requests _ item h := ⟨item, h, rfl⟩
  unheld _ h := h
  spent _ item h hstate := ⟨item, h, hstate⟩

theorem Later.trans (h : s.Later s') (h' : s'.Later s'') : s.Later s'' where
  time := le_trans h.time h'.time
  rows key row hrow := h'.rows key row (h.rows key row hrow)
  requests k item hitem := by
    obtain ⟨item', hitem', hrequest⟩ := h.requests k item hitem
    obtain ⟨item'', hitem'', hrequest'⟩ := h'.requests k item' hitem'
    exact ⟨item'', hitem'', hrequest'.trans hrequest⟩
  unheld k hu := h'.unheld k (h.unheld k hu)
  spent k item hitem hstate := by
    obtain ⟨item', hitem', hstate'⟩ := h.spent k item hitem hstate
    exact h'.spent k item' hitem' hstate'

/-- Each admission has its reservation, under its request and of its own. -/
structure Sound (s : Clocked) : Prop where
  keyed : Keyed s.state.tables
  admitted : ∀ key row decision k, s.row key = some row → row.Admits decision k →
    ∃ item, s.item k = some item ∧ item.request = decision.request
  distinct : ∀ key key' row row' decision decision' k, s.row key = some row →
    s.row key' = some row' → row.Admits decision k → row'.Admits decision' k → key = key'

theorem item_eq (h : s.state = { tables, commands }) (k : String) : s.item k = tables.reservations.get? k := by
  rw [item, h]

theorem row_eq (h : s.state = { tables, commands }) (key : String) : s.row key = commands.get? key := by
  rw [row, h]

theorem Later.of_state (h : s'.state = s.state) (htime : s.time ≤ s'.time) : s.Later s' where
  time := htime
  rows key row hrow := by rwa [Clocked.row, h]
  requests k item hitem := ⟨item, by rwa [Clocked.item, h], rfl⟩
  unheld k hu := by
    obtain ⟨item, hitem, hunheld⟩ := hu
    exact ⟨item, by rwa [h], item.unheld_mono hunheld htime⟩
  spent k item hitem hstate := ⟨item, by rwa [Clocked.item, h], hstate⟩

theorem Sound.of_state (hs : s.Sound) (h : s'.state = s.state) : s'.Sound := by
  obtain ⟨hkeyed, hadmitted, hdistinct⟩ := hs
  constructor
  case keyed => rwa [h]
  case admitted => simpa only [row, item, h] using hadmitted
  case distinct => simpa only [row, h] using hdistinct

theorem send_later (hs : s.Sound) : s.Later (s.send L key c w).2 := by
  have htime : s.time ≤ (s.send L key c w).2.time := send_time s
  rcases hsend : s.send L key c w with ⟨r, s'⟩
  rw [hsend] at htime
  cases r with
  | error e => exact .of_state (send_error hsend) htime
  | ok result =>
    rcases send_ok hsend with ⟨_, -, -, hsame⟩ | ⟨hnew, clock, tables, hclock, happly, hstate⟩
    · exact .of_state hsame htime
    · constructor
      case time => exact htime
      case rows =>
        intro key' row hrow
        rw [row_eq hstate, get?_put_of_ne]
        · exact hrow
        · rintro rfl
          cases hnew.symm.trans hrow
      case requests =>
        intro k item hitem
        rw [item_eq hstate]
        cases apply_fate hs.keyed happly hitem with
        | same hitem' _ => exact ⟨item, hitem', rfl⟩
        | turned hitem' _ hrequest _ => exact ⟨_, hitem', hrequest⟩
      case unheld =>
        intro k hu
        obtain ⟨item, hitem, hunheld⟩ := apply_unheld hs.keyed happly hclock hu
        exact ⟨item, by rwa [hstate], item.unheld_mono hunheld htime⟩
      case spent =>
        intro k item hitem hne
        rw [item_eq hstate]
        cases apply_fate hs.keyed happly hitem with
        | same hitem' _ => exact ⟨item, hitem', hne⟩
        | turned hitem' hnext _ _ => exact ⟨_, hitem', hnext.spent⟩

theorem send_sound (hs : s.Sound) : (s.send L key c w).2.Sound := by
  have hlater : s.Later (s.send L key c w).2 := send_later hs
  rcases hsend : s.send L key c w with ⟨r, s'⟩
  rw [hsend] at hlater
  cases r with
  | error e => exact hs.of_state (send_error hsend)
  | ok result =>
    rcases send_ok hsend with ⟨_, -, -, hsame⟩ | ⟨hnew, clock, tables, hclock, happly, hstate⟩
    · exact hs.of_state hsame
    · have hrow : ∀ key' row, s'.row key' = some row →
          s.row key' = some row ∨ key' = key ∧ row.result = result := by
        intro key' row hrow
        rw [row_eq hstate, get?_put] at hrow
        split at hrow
        case isTrue heq =>
          cases hrow
          exact .inr ⟨heq.symm, rfl⟩
        · exact .inl hrow
      -- What the new row admits was not there before.
      have hfresh : ∀ (row row' : CommandRow) key' decision decision' k, s.row key' = some row' →
          row'.Admits decision' k → row.result = result → ¬ row.Admits decision k := by
        rintro row row' key' decision decision' k hrow' hadmits' hresult ⟨hdecided, hadmitted⟩
        obtain ⟨item, hitem, -⟩ := hs.admitted key' row' decision' k hrow' hadmits'
        rw [← hresult, hdecided] at happly
        obtain ⟨-, hnone, -⟩ := apply_decided hs.keyed happly hadmitted
        cases hnone.symm.trans hitem
      constructor
      case keyed =>
        rw [hstate]
        exact apply_keyed hs.keyed happly
      case admitted =>
        rintro key' row decision k hrow' hadmits
        rcases hrow key' row hrow' with hold | ⟨rfl, hresult⟩
        · obtain ⟨item, hitem, hrequest⟩ := hs.admitted key' row decision k hold hadmits
          obtain ⟨item', hitem', hrequest'⟩ := hlater.requests k item hitem
          exact ⟨item', hitem', hrequest'.trans hrequest⟩
        · obtain ⟨hdecided, hadmitted⟩ := hadmits
          rw [← hresult, hdecided] at happly
          obtain ⟨-, -, item, hitem, hrequest⟩ := apply_decided hs.keyed happly hadmitted
          exact ⟨item, by rwa [item_eq hstate], hrequest⟩
      case distinct =>
        intro key₁ key₂ row₁ row₂ decision₁ decision₂ k hrow₁ hrow₂ hadmits₁ hadmits₂
        rcases hrow key₁ row₁ hrow₁ with hold₁ | ⟨rfl, hresult₁⟩ <;>
          rcases hrow key₂ row₂ hrow₂ with hold₂ | ⟨rfl, hresult₂⟩
        · exact hs.distinct key₁ key₂ row₁ row₂ decision₁ decision₂ k hold₁ hold₂ hadmits₁ hadmits₂
        · exact absurd hadmits₂ (hfresh _ _ _ _ _ _ hold₁ hadmits₁ hresult₂)
        · exact absurd hadmits₁ (hfresh _ _ _ _ _ _ hold₂ hadmits₂ hresult₁)
        · rfl

end Clocked

end Karajan.Capacity
