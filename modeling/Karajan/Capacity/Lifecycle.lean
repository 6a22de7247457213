import Karajan.Capacity.Commands

/-!
# The life of a reservation

A reservation is turned from state to state by its commands and by expiries, and
each turn is in the log once. Usage is recorded of activated reservations alone;
one that no longer occupies capacity never comes back.
-/

namespace Karajan.Capacity

open Dict Check
variable {t t' : Tables} {s s' : State}

inductive Next : ReservationState → ReservationState → Prop
  | activated : Next .reserved .active
  | expired : Next .reserved .expired
  | released : Next .reserved .released
  | unknown : Next .active .unknown
  | ended : Next .active .ended
  | unsent : Next .active .released
  | stillUnknown : Next .unknown .unknown
  | nowEnded : Next .unknown .ended
  | nowUnsent : Next .unknown .released

theorem Next.holds (h : Next before after) : before.holds = true := by cases h <;> rfl

def Tables.eventsOf (t : Tables) (admission_id : String) : List Event :=
  (t.lifecycle.filter (·.admission_id = admission_id)).map LifecycleRow.event

-- Turns

theorem reconciledState_ok (h : reconciledState t item evidence = .ok state) :
    (state = .released ∧ t.used evidence.admission_id = false) ∨
    item.state ≠ .reserved ∧
      (state = .unknown ∨ state = .ended ∧ t.used evidence.admission_id = true) := by
  unfold reconciledState at h
  split at h
  · simp only [bind_ok, ensure_ok, pure_ok, Bool.not_eq_true'] at h
    obtain ⟨_, hused, _, _, rfl⟩ := h
    exact .inl ⟨rfl, hused⟩
  · simp only [bind_ok, ensure_ok, pure_ok, decide_eq_true_eq] at h
    obtain ⟨_, hstate, _, hused, rfl⟩ := h
    refine .inr ⟨hstate, ?_⟩
    split
    case isTrue hended =>
      simp only [Bool.and_eq_true] at hended
      exact .inr ⟨rfl, by simpa [hended.2] using hused⟩
    · exact .inl rfl

theorem Turn.next (h : Turn t item item' event) : Next item.state item'.state := by
  cases h with
  | activated hstate => rw [hstate]; exact .activated
  | cancelled hstate => rw [hstate]; exact .released
  | reconciled hstate _ h =>
    have hok := reconciledState_ok h
    change Next item.state _
    cases hbefore : item.state with
    | reserved =>
      obtain ⟨rfl, -⟩ | ⟨hne, -⟩ := hok
      · exact .released
      · exact absurd hbefore hne
    | active =>
      obtain ⟨rfl, -⟩ | ⟨-, rfl | ⟨rfl, -⟩⟩ := hok
      · exact .unsent
      · exact .unknown
      · exact .ended
    | unknown =>
      obtain ⟨rfl, -⟩ | ⟨-, rfl | ⟨rfl, -⟩⟩ := hok
      · exact .nowUnsent
      · exact .stillUnknown
      · exact .nowEnded
    | _ => rw [hbefore] at hstate; cases hstate

/-- What a command leaves of a reservation: all as it was, or one turn and its event. -/
inductive Fate (t t' : Tables) (k : String) (item : Reservation) : Prop
  | same (hitem : t'.reservations.get? k = some item) (hevents : t'.eventsOf k = t.eventsOf k)
  | turned {item' : Reservation} {event : Event} (hitem : t'.reservations.get? k = some item')
      (hnext : Next item.state item'.state) (hrequest : item'.request = item.request)
      (hevents : t'.eventsOf k = t.eventsOf k ++ [event])

theorem values_filter_id (hk : Keyed t) :
    (t.reservations.values.filter fun item => item.id = k) = (t.reservations.get? k).toList := by
  have hid : ∀ e ∈ t.reservations.entries, decide (e.2.id = k) = decide (e.1 = k) := by
    intro e he
    rw [hk e.1 e.2 (get?_eq_some.mpr he)]
  rw [values, List.filter_map, Function.comp_def, List.filter_congr hid, entries_filter_key]
  cases t.reservations.get? k <;> rfl

theorem eventsOf_expire (hk : Keyed t) : (expire account now t).eventsOf k = t.eventsOf k ++
    ((t.reservations.get? k).toList.filter fun item => item.account_id = account &&
      item.lapsed now).map fun _ => .unsentReservationExpired now := by
  rw [Tables.eventsOf, expire_lifecycle, List.filter_append, List.map_append, ← values_filter_id hk]
  simp only [Tables.eventsOf, lapsedOf, Tables.reservationsOf, List.filter_map, List.map_map,
    List.filter_filter, Function.comp_def]
  have hswap : ∀ item : Reservation,
      (decide (item.id = k) && (item.lapsed now && decide (item.account_id = account))) =
        (decide (item.account_id = account) && item.lapsed now && decide (item.id = k)) := by
    intro item
    rw [Bool.and_comm, Bool.and_comm (item.lapsed now)]
  simp only [hswap]

/-- What a series of expiries leaves of a reservation: it expires once at most. -/
inductive Lapses (t t' : Tables) (k : String) (item : Reservation) : Prop
  | kept (hitem : t'.reservations.get? k = some item) (hevents : t'.eventsOf k = t.eventsOf k)
  | expired (hstate : item.state = .reserved) (hitem : t'.reservations.get? k = some item.expire)
      (event : Event) (hevents : t'.eventsOf k = t.eventsOf k ++ [event])

open Reservation (lapse lapsed_reserved state)

theorem expire_lapses (hk : Keyed t) (h : t.reservations.get? k = some item) :
    Lapses t (expire account now t) k item := by
  have hitem : (expire account now t).reservations.get? k = some (item.lapse account now) := by
    rw [expire_get? hk, h, Option.map_some]
  have hevents : (expire account now t).eventsOf k = _ := eventsOf_expire hk
  rw [h] at hevents
  by_cases hlapses : item.account_id = account ∧ item.lapsed now
  · rw [lapse, if_pos hlapses] at hitem
    exact .expired (lapsed_reserved hlapses.2) hitem _ (by simpa [hlapses] using hevents)
  · rw [lapse, if_neg hlapses] at hitem
    exact .kept hitem (by simpa [hlapses] using hevents)

theorem expires_lapses (hexpires : Expires t t') (hk : Keyed t)
    (h : t.reservations.get? k = some item) : Lapses t t' k item := by
  induction hexpires with
  | refl => exact .kept h rfl
  | @tail m _ hexpires hlast ih =>
    obtain ⟨account, now, rfl⟩ := hlast
    have hlapses : ∀ item, m.reservations.get? k = some item →
        Lapses m (expire account now m) k item := fun _ => expire_lapses (Expires.keyed hexpires hk)
    cases ih with
    | kept hitem hevents =>
      cases hlapses _ hitem with
      | kept hitem hevents' => exact .kept hitem (hevents'.trans hevents)
      | expired hstate hitem event hevents' =>
        exact .expired hstate hitem event (by rw [hevents', hevents])
    | expired hstate hitem event hevents =>
      cases hlapses _ hitem with
      | kept hitem hevents' => exact .expired hstate hitem event (hevents'.trans hevents)
      | expired hstate' => cases hstate'

theorem Fate.settled (h : Fate t t' k item) (hsettled : item.state.holds = false) :
    t'.reservations.get? k = some item ∧ t'.eventsOf k = t.eventsOf k := by
  cases h with
  | same hitem hevents => exact ⟨hitem, hevents⟩
  | turned _ hnext => rw [hnext.holds] at hsettled; cases hsettled

theorem eventsOf_save : (save item event t).eventsOf k =
    if item.id = k then t.eventsOf k ++ [event] else t.eventsOf k := by
  simp only [Tables.eventsOf, save, List.filter_append, List.map_append]
  split <;> simp_all

theorem edit_fate (hedit : Edit t t') (h : t.reservations.get? k = some item) : Fate t t' k item := by
  cases hedit with
  | @turn before after event hbefore hturn =>
    obtain ⟨hid, hrequest, -⟩ := hturn.same
    by_cases hkey : before.id = k
    · subst hkey
      cases hbefore.symm.trans h
      have hevents : (save after event t).eventsOf item.id = t.eventsOf item.id ++ [event] := by
        rw [eventsOf_save, if_pos hid]
      exact .turned (by simp [save, hid]) hturn.next hrequest hevents
    · refine .same ?_ ?_
      · simp [save, get?_put, hid, hkey, h]
      · rw [eventsOf_save, if_neg (hid ▸ hkey)]
  | @reservation new _ _ _ _ hreserves =>
    exact .same (get?_put_new hreserves.identity h) rfl
  | _ => exact .same h rfl

theorem expires_edit_fate (hk : Keyed t) (hexpires : Expires t m) (hedit : Edit m t')
    (h : t.reservations.get? k = some item) : Fate t t' k item := by
  cases expires_lapses hexpires hk h with
  | kept hitem hevents =>
    cases edit_fate hedit hitem with
    | same hitem hevents' => exact .same hitem (hevents'.trans hevents)
    | turned hitem hnext hrequest hevents' =>
      exact .turned hitem hnext hrequest (by rw [hevents', hevents])
  | expired hstate hitem event hevents =>
    obtain ⟨hitem, hevents'⟩ := (edit_fate hedit hitem).settled rfl
    refine .turned hitem ?_ rfl (hevents'.trans hevents)
    rw [hstate]
    exact .expired

theorem step_fate (hk : Keyed s.tables) (a : Action) (h : s.tables.reservations.get? k = some item) :
    Fate s.tables (s.step L a).tables k item := by
  obtain ⟨m, hexpires, hedit⟩ := step_ok (L := L) hk a
  exact expires_edit_fate hk hexpires hedit h

-- Attempts and usage

/-- Each attempt has one reservation, and usage is of reservations that were activated. -/
structure Linked (t : Tables) : Prop where
  attempts : ∀ k k' item item', t.reservations.get? k = some item →
    t.reservations.get? k' = some item' → item.request.attempt_id = item'.request.attempt_id → k = k'
  used : ∀ id row, t.usage.get? id = some row → ∃ item,
    t.reservations.get? row.receipt.admission_id = some item ∧ row.account_id = item.account_id ∧
      (item.state = .active ∨ item.state = .unknown ∨ item.state = .ended)
  ended : ∀ k item, t.reservations.get? k = some item → item.state = .ended → t.used k = true

theorem used_iff : t.used k = true ↔ ∃ id row, t.usage.get? id = some row ∧
    row.receipt.admission_id = k := by
  simp only [Tables.used, List.any_eq_true, mem_values, decide_eq_true_eq]
  constructor
  · rintro ⟨row, ⟨id, hrow⟩, hk⟩
    exact ⟨id, row, hrow, hk⟩
  · rintro ⟨id, row, hrow, hk⟩
    exact ⟨row, ⟨id, hrow⟩, hk⟩

theorem used_expire : (expire account now t).used k = t.used k := by
  rw [Tables.used, expire_usage]
  rfl

theorem Linked.expire (hk : Keyed t) (h : Linked t) : Linked (expire account now t) := by
  refine ⟨fun k k' item item' hitem hitem' heq => ?_, fun id row hrow => ?_, fun k item hitem hstate => ?_⟩
  · rw [expire_get? hk, Option.map_eq_some_iff] at hitem hitem'
    obtain ⟨old, hold, rfl⟩ := hitem
    obtain ⟨old', hold', rfl⟩ := hitem'
    exact h.attempts k k' old old' hold hold' (by simpa using heq)
  · rw [expire_usage] at hrow
    obtain ⟨item, hitem, haccount, hstate⟩ := h.used id row hrow
    have hkept : item.lapse account now = item := by
      refine if_neg fun hlapses => ?_
      rw [lapsed_reserved hlapses.2] at hstate
      simp at hstate
    exact ⟨item, by rw [expire_get? hk, hitem, Option.map_some, hkept], haccount, hstate⟩
  · rw [expire_get? hk, Option.map_eq_some_iff] at hitem
    obtain ⟨old, hold, rfl⟩ := hitem
    rw [used_expire]
    refine h.ended k old hold ?_
    unfold lapse at hstate
    split at hstate
    · cases hstate
    · exact hstate

theorem Linked.unused (h : Linked t) (hitem : t.reservations.get? k = some item)
    (hstate : item.state = .reserved ∨ item.state = .released ∨ item.state = .expired) : t.used k = false := by
  rw [← Bool.not_eq_true, used_iff]
  rintro ⟨id, row, hrow, rfl⟩
  obtain ⟨item', hitem', -, hused⟩ := h.used id row hrow
  cases hitem.symm.trans hitem'
  obtain hstate | hstate | hstate := hstate <;> simp [hstate] at hused

/-- A turn keeps what usage is recorded of activated reservations, and only with usage
does it end one. -/
theorem Turn.linked (h : Turn t item item' event) (hlinked : Linked t)
    (hitem : t.reservations.get? item.id = some item) : (t.used item.id = true →
      item'.state = .active ∨ item'.state = .unknown ∨ item'.state = .ended) ∧
    (item'.state = .ended → t.used item.id = true) := by
  cases h with
  | activated hstate => exact ⟨fun _ => .inl rfl, fun hended => nomatch hended⟩
  | cancelled hstate =>
    have hunused := hlinked.unused hitem (.inl hstate)
    refine ⟨fun hused => ?_, fun hended => nomatch hended⟩
    rw [hunused] at hused
    cases hused
  | @reconciled evidence state now hstate hid h =>
    rw [← hid]
    obtain ⟨rfl, hunused⟩ | ⟨-, rfl | ⟨rfl, hused⟩⟩ := reconciledState_ok h
    · refine ⟨fun hused => ?_, fun hended => nomatch hended⟩
      rw [hunused] at hused
      cases hused
    · exact ⟨fun _ => .inr (.inl rfl), fun hended => nomatch hended⟩
    · exact ⟨fun _ => .inr (.inr rfl), fun _ => hused⟩

theorem Linked.turn (h : Linked t) (hitem : t.reservations.get? item.id = some item)
    (hturn : Turn t item item' event) : Linked (save item' event t) := by
  obtain ⟨hid, hrequest, haccount⟩ := hturn.same
  obtain ⟨hactive, hended⟩ := hturn.linked h hitem
  have hget : ∀ k, (save item' event t).reservations.get? k =
      if item.id = k then some item' else t.reservations.get? k := by
    intro k
    rw [← hid]
    exact get?_put
  have hrequests : ∀ k after, (save item' event t).reservations.get? k = some after →
      ∃ before, t.reservations.get? k = some before ∧ after.request = before.request := by
    intro k after hafter
    rw [hget] at hafter
    split at hafter
    case isTrue heq => cases hafter; exact ⟨item, heq ▸ hitem, hrequest⟩
    · exact ⟨after, hafter, rfl⟩
  refine ⟨fun k k' a a' ha ha' heq => ?_, fun id row hrow => ?_, fun k a ha hstate => ?_⟩
  · obtain ⟨b, hb, hab⟩ := hrequests k a ha
    obtain ⟨b', hb', hab'⟩ := hrequests k' a' ha'
    exact h.attempts k k' b b' hb hb' (by rw [← hab, ← hab', heq])
  · obtain ⟨old, hold, hrowAccount, hstate⟩ := h.used id row hrow
    rw [hget]
    split
    case isTrue heq =>
      rw [← heq] at hold
      cases hitem.symm.trans hold
      exact ⟨item', rfl, hrowAccount.trans haccount.symm, hactive (used_iff.mpr ⟨id, row, hrow, heq.symm⟩)⟩
    · exact ⟨old, hold, hrowAccount, hstate⟩
  · rw [hget] at ha
    split at ha
    case isTrue heq =>
      cases ha
      rw [← heq]
      exact hended hstate
    · exact h.ended k a ha hstate

theorem Linked.reservation (h : Linked t) (hreserves : Reserves t item profile policy now evaluation) :
    Linked { t with reservations := t.reservations.put item.id item } := by
  have hold : ∀ k other, t.reservations.get? k = some other →
      (t.reservations.put item.id item).get? k = some other :=
    fun k other hother => get?_put_new hreserves.identity hother
  have hget : ∀ k other, (t.reservations.put item.id item).get? k = some other →
      (k = item.id ∧ other = item) ∨ t.reservations.get? k = some other := by
    intro k other hother
    rcases of_put hother with ⟨heq, rfl⟩ | ⟨-, hother⟩
    · exact .inl ⟨heq.symm, rfl⟩
    · exact .inr hother
  refine ⟨fun k k' a a' ha ha' heq => ?_, fun id row hrow => ?_, fun k a ha hstate => ?_⟩
  · obtain ⟨rfl, rfl⟩ | hb := hget k a ha <;> obtain ⟨rfl, rfl⟩ | hb' := hget k' a' ha'
    · rfl
    · exact absurd heq.symm (hreserves.attempt k' a' hb')
    · exact absurd heq (hreserves.attempt k a hb)
    · exact h.attempts k k' a a' hb hb' heq
  · obtain ⟨other, hother, haccount, hstate⟩ := h.used id row hrow
    exact ⟨other, hold _ other hother, haccount, hstate⟩
  · obtain ⟨rfl, rfl⟩ | ha := hget k a ha
    · rw [hreserves.state] at hstate
      cases hstate
    · exact h.ended k a ha hstate

theorem Linked.usage (h : Linked t) (huses : Uses t item row) :
    Linked { t with usage := t.usage.put row.receipt.id row } := by
  refine ⟨h.attempts, fun id other hother => ?_, fun k a ha hstate => ?_⟩
  · rcases of_put hother with ⟨-, rfl⟩ | ⟨-, hother⟩
    · exact ⟨item, huses.reservation, huses.account, huses.state⟩
    · exact h.used id other hother
  · obtain ⟨id, other, hother, rfl⟩ := used_iff.mp (h.ended k a ha hstate)
    exact used_iff.mpr ⟨id, other, get?_put_new huses.identity hother, rfl⟩

theorem Linked.edit (hedit : Edit t t') (h : Linked t) : Linked t' := by
  cases hedit with
  | turn hitem hturn => exact h.turn hitem hturn
  | reservation hreserves => exact h.reservation hreserves
  | usage huses => exact h.usage huses
  | _ => exact ⟨h.attempts, h.used, h.ended⟩

theorem reach_linked (h : (system L).Reach System.free s) : Linked s.tables := by
  have hempty : Linked .empty := by
    refine ⟨fun _ _ _ _ hitem => ?_, fun _ _ hrow => ?_, fun _ _ hitem => ?_⟩
    · cases hitem
    · cases hrow
    · cases hitem
  exact (reach_keeps hempty (fun _ _ _ hk => Linked.expire hk)
    (fun _ _ _ hedit => Linked.edit hedit) h).2

-- Whole runs

section
variable (hk : Keyed s.tables) (hp : (system L).Path System.free s s')
  (h : s.tables.reservations.get? k = some item)
include hk hp h

theorem path_reservation :
    ∃ item', s'.tables.reservations.get? k = some item' ∧ item'.request = item.request := by
  have hkept := hp.keeps (I := fun s => Keyed s.tables ∧ ∃ item',
    s.tables.reservations.get? k = some item' ∧ item'.request = item.request) ?_ ⟨hk, item, h, rfl⟩
  · exact hkept.2
  rintro s a ⟨hk, item', hitem', hrequest⟩ -
  refine ⟨step_keyed hk, ?_⟩
  cases step_fate (L := L) hk a hitem' with
  | same hitem _ => exact ⟨item', hitem, hrequest⟩
  | turned hitem _ hsame _ => exact ⟨_, hitem, hsame.trans hrequest⟩

theorem path_settled (hsettled : item.state.holds = false) :
    s'.tables.reservations.get? k = some item ∧ s'.tables.eventsOf k = s.tables.eventsOf k := by
  have hkept := hp.keeps (I := fun s' => Keyed s'.tables ∧
    s'.tables.reservations.get? k = some item ∧ s'.tables.eventsOf k = s.tables.eventsOf k)
    ?_ ⟨hk, h, rfl⟩
  · exact hkept.2
  rintro s a ⟨hk, hitem, hevents⟩ -
  obtain ⟨hitem', hevents'⟩ := (step_fate (L := L) hk a hitem).settled hsettled
  exact ⟨step_keyed hk, hitem', hevents'.trans hevents⟩

end

/-- The life cycle of reservations, over every run and with every clock: an attempt has
one reservation at most; reservations move as their states allow, each time with one
event, and not at all where a command fails; usage is recorded of the activated ones,
and of every one that ended; and a reservation that expired stays so. -/
theorem lifecycle_kept (h : (system L).Reach System.free s) :
    (∀ s' k k' item item', (system L).Path System.free s s' →
      s.tables.reservations.get? k = some item → s'.tables.reservations.get? k' = some item' →
      item.request.attempt_id = item'.request.attempt_id → k = k') ∧
    (∀ a k item, s.tables.reservations.get? k = some item → Fate s.tables (s.step L a).tables k item) ∧
    (∀ a e, s.command L a.command_key a.command a.world = .error e → s.step L a = s) ∧
    (∀ k item, s.tables.reservations.get? k = some item →
      (item.state = .reserved ∨ item.state = .released ∨ item.state = .expired →
        ∀ id row, s.tables.usage.get? id = some row → row.receipt.admission_id ≠ k) ∧
      (item.state = .ended → ∃ id row, s.tables.usage.get? id = some row ∧ row.receipt.admission_id = k)) ∧
    (∀ s' k item, (system L).Path System.free s s' →
      s.tables.reservations.get? k = some item → item.state.holds = false →
      s'.tables.reservations.get? k = some item) := by
  have hk := reach_keyed h
  have hlinked := reach_linked h
  refine ⟨fun s' k k' item item' hp hitem hitem' heq => ?_, fun a k item => step_fate hk a,
    fun a e herror => ?_, fun k item hitem => ⟨fun hstate id row hrow hof => ?_, fun hstate => ?_⟩,
    fun s' k item hp hitem hsettled => (path_settled hk hp hitem hsettled).1⟩
  · obtain ⟨now, hnow, hrequest⟩ := path_reservation hk hp hitem
    exact (reach_linked (h.path hp)).attempts k k' now item' hnow hitem' (by rw [hrequest, heq])
  · simp [State.step, herror]
  · have hused := used_iff.mpr ⟨id, row, hrow, hof⟩
    rw [hlinked.unused hitem hstate] at hused
    cases hused
  · exact used_iff.mp (hlinked.ended k item hitem hstate)

-- Receipts

theorem step_commands (h : s.commands.get? key = some row) : (s.step L a).commands.get? key = some row := by
  unfold State.step
  split
  case h_1 hcommand =>
    obtain ⟨rfl, -⟩ | ⟨hnew, tables, -, rfl⟩ := command_ok hcommand
    · exact h
    · exact get?_put_new hnew h
  · exact h

theorem command_answered (h : s.command L key c w = .ok (result, s')) :
    L.keyValid key = true ∧ s'.commands.get? key = some ⟨L.digest c, result⟩ := by
  simp only [State.command, bind_ok, ensure_ok] at h
  obtain ⟨_, hvalid, h⟩ := h
  refine ⟨hvalid, ?_⟩
  split at h
  case h_1 original horiginal =>
    simp only [bind_ok, ensure_ok, pair_ok, decide_eq_true_eq] at h
    obtain ⟨_, hdigest, rfl, rfl⟩ := h
    rw [horiginal, ← hdigest]
  · simp only [bind_ok, pure_ok, Prod.exists, Prod.mk.injEq] at h
    obtain ⟨_, _, -, rfl, rfl⟩ := h
    exact get?_put_self

/-- A command takes effect once. Whatever the store did since it was answered, the same
command under its key has the same answer and changes nothing, with any clock and any
callbacks, and any other command under that key is a conflict. -/
theorem commands_answered_once (h : s.command L key c w = .ok (result, answered))
    (hp : (system L).Path System.free answered s') (again : Command) (w' : World) :
    s'.command L key again w' = if L.digest again = L.digest c then .ok (result, s')
      else .error .idempotencyConflict := by
  obtain ⟨hvalid, hrow⟩ := command_answered h
  have hkept : s'.commands.get? key = some ⟨L.digest c, result⟩ :=
    hp.keeps (I := fun s => s.commands.get? key = _) (fun _ _ hrow _ => step_commands hrow) hrow
  simp only [State.command, hvalid, hkept]
  by_cases hsame : L.digest again = L.digest c
  · simp [hsame, ensure]
  · simp [hsame, ensure, Ne.symm hsame]

-- A run

section Sample

/-- The kind of a command stands for its digest: no key is used twice below. -/
def sampleLibrary : Library where
  digest
    | .registerPool _ => "pool"
    | .registerProfile _ => "profile"
    | .observe _ => "observe"
    | .admitAttempt _ => "admitAttempt"
    | .activate _ => "activate"
    | .recordUsage _ => "usage"
    | _ => "other"
  keyValid key := 0 < key.length && key.length ≤ 256

def samplePool : Pool := ⟨"p", "a", .service, .requests, .fixed⟩

def sampleProfile : Profile := ⟨"f", 1, "a", ["p"], by simp, by simp⟩

def samplePolicy : Policy where
  account_id := "a"
  max_active_attempts := 2
  max_attempt_duration_seconds := 60
  observation_max_age_seconds := 90
  require_official_observation := true
  safety_margin := .empty
  lead_reserve := .empty
  lead_reserved_slots := 1
  conservative_mode := none

def sampleObservation : Observation where
  pool_id := "p"
  window_id := "w"
  observed_at := 10
  reset_at := some 100
  source := .official
  source_ref := "s"
  metric := .remaining
  amount := some ⟨"10", 10000000⟩
  limit := none
  covered_usage_ids := []
  coverage_ref := none
  adjustment_reason := none

def sampleRequest (attempt_id : String) : AdmissionRequest where
  attempt_id
  run_id := "n"
  profile_id := "f"
  profile_revision := 1
  role := .worker
  purpose := none
  authorization_ref := "z"
  rulebook_revision := "b"
  duration_seconds := 20
  demand := Dict.empty.put "p" ⟨"4", 4000000⟩
  expected_capacity := none

def sampleWorld (clock : List Rat) (identity : String) : World := ⟨clock.map some, identity, none, none, none⟩

/-- An account is set up and a reservation made, which lapses before the next one. -/
def sampleActions : List Action := [
  ⟨"1", .registerPool samplePool, sampleWorld [] ""⟩,
  ⟨"2", .registerProfile sampleProfile, sampleWorld [] ""⟩,
  ⟨"3", .activatePolicy samplePolicy 0, sampleWorld [] ""⟩,
  ⟨"4", .observe sampleObservation, sampleWorld [10] ""⟩,
  ⟨"5", .admitAttempt (sampleRequest "t"), sampleWorld [10, 11, 12, 13] "r"⟩,
  ⟨"6", .admitAttempt (sampleRequest "u"), sampleWorld [40, 41, 42, 43] "q"⟩]

def sampleState : State := (system sampleLibrary).run State.empty sampleActions

def leadRequest : AdmissionRequest :=
  { sampleRequest "v" with role := .commander, purpose := some .lead }

def leadAction : Action := ⟨"7", .admitAttempt leadRequest, sampleWorld [44, 45, 46, 47] "x"⟩

def Result.decision? : Result → Option Decision
  | .decided decision => some decision
  | .done | .observed _ | .activation _ | .state _ | .used _ | .failed _ => none

theorem decided_of {answer : Except CapacityError (Result × State)} {f : Decision → α}
    (h : (answer.toOption.map fun r => r.1.decision?.map f) = some (some a)) :
    ∃ decision s', answer = .ok (.decided decision, s') ∧ f decision = a := by
  obtain ⟨⟨result, s'⟩, rfl, hdecision⟩ := Check.ok_of_map h
  cases result with
  | decided decision => exact ⟨decision, s', rfl, by simpa [Result.decision?] using hdecision⟩
  | done | observed | activation | state | used | failed => cases hdecision

theorem sampleState_reach : (system sampleLibrary).Reach System.free sampleState :=
  ⟨State.empty, rfl, .of_free_run⟩

/-- The reservation that lapsed is not activated when its turn comes. -/
theorem lifecycle_kept_lapsed : ((((system sampleLibrary).step sampleState
      ⟨"7", .activate "r", sampleWorld [44] ""⟩).tables.reservations.get? "r").map state) = some .expired := by
  have hexpired : (sampleState.tables.reservations.get? "r").map state = some .expired := by decide +kernel
  obtain ⟨item, hitem, hstate⟩ := Option.map_eq_some_iff.mp hexpired
  obtain ⟨-, -, -, -, hsettled⟩ := lifecycle_kept sampleState_reach
  rw [hsettled _ "r" item (.step .refl trivial) hitem (by rw [hstate]; rfl), Option.map_some, hstate]

theorem commands_answered_once_retried : sampleState.command sampleLibrary "1" (.registerPool samplePool)
    (sampleWorld [] "") = .ok (.done, sampleState) := by
  have hfirst : State.empty.command sampleLibrary "1" (.registerPool samplePool) (sampleWorld [] "") =
      .ok (.done, State.empty.step sampleLibrary ⟨"1", .registerPool samplePool, sampleWorld [] ""⟩) := rfl
  exact commands_answered_once hfirst (@System.Path.of_free_run _ _ _ _ sampleActions.tail) _ _

end Sample

end Karajan.Capacity
