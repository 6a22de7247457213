import Mathlib.Algebra.Order.Group.Int
import Karajan.Resources.Broker

/-!
# Moves of money

What a currency or one attempt holds is bounded by what was granted to it: the
configured limit, the reservation. The writes of the broker are a few moves, none
of which raises what is held above that, and the booking of a confirmed total,
which may.
-/

namespace Karajan.Resources

open Option CallRow Dict Check
variable {t t' t'' : Tables}

-- Scopes

/-- What money is counted over: all attempts of a currency, or one attempt. -/
inductive Scope
  | currency (currency : String)
  | attempt (attempt_id : String)

namespace Scope

def covers (scope : Scope) (attempt_id currency : String) : Bool :=
  match scope with
  | .currency c => currency = c
  | .attempt id => attempt_id = id

def allowance (scope : Scope) (t : Tables) : Option Int :=
  match scope with
  | .currency c => t.budgets.get? c
  | .attempt id => (t.attempts.get? id).map AttemptRow.reserved

end Scope

def CallRow.held (call : CallRow) : Int :=
  if call.state = .notSent then 0 else call.actual_units.getD call.upper_units

section
variable (t : Tables) (scope : Scope)

def Tables.counts (call : CallRow) : Bool :=
  (t.attempts.get? call.attempt_id).any fun attempt => scope.covers call.attempt_id attempt.currency

def Tables.heldBy : Int :=
  (t.attempts.total fun id attempt => if scope.covers id attempt.currency then attempt.future else 0) +
  t.calls.total fun _ call => if t.counts scope call then call.held else 0

def callsHeld (t : Tables) (attempt_id : String) : Int :=
  t.calls.total fun _ call => if call.attempt_id = attempt_id then call.held else 0

def Bounded : Prop :=
  ∀ call_id call, t.calls.get? call_id = some call → t.counts scope call →
    ∀ actual ∈ call.actual_units, actual ≤ call.upper_units

def Within : Prop := ∀ limit ∈ scope.allowance t, t.heldBy scope ≤ limit

end

-- Moves

/-- What stays the same about a call that is neither withdrawn nor settled. -/
structure CallRow.Same (call call' : CallRow) : Prop where
  attempt_id : call'.attempt_id = call.attempt_id
  upper_units : call'.upper_units = call.upper_units
  actual_units : call'.actual_units = call.actual_units
  notSent : call'.state = .notSent ↔ call.state = .notSent
  settled : call'.state = .settled ↔ call.state = .settled

inductive Move : Tables → Tables → Prop
  | note {t : Tables} {receipts usage} : Move t { t with receipts := receipts, usage := usage }
  | configured {t : Tables} {currency : String} {limit : Int}
      (fresh : t.budgets.get? currency = none) (nonneg : 0 ≤ limit) :
      Move t { t with budgets := t.budgets.put currency limit }
  | reserved {t : Tables} {attempt_id : String} {attempt : AttemptRow} {limit : Int}
      (fresh : t.attempts.get? attempt_id = none) (future : attempt.future = attempt.reserved)
      (active : attempt.state = .active) (nonneg : 0 ≤ attempt.reserved)
      (budget : t.budgets.get? attempt.currency = some limit)
      (room : attempt.reserved + t.heldBy (.currency attempt.currency) ≤ limit) :
      Move t { t with attempts := t.attempts.put attempt_id attempt }
  | prepared {t : Tables} {call_id : String} {attempt : AttemptRow} {call : CallRow}
      (stored : t.attempts.get? call.attempt_id = some attempt) (active : attempt.state = .active)
      (fresh : t.calls.get? call_id = none) (state : call.state = .prepared)
      (actual : call.actual_units = none) (nonneg : 0 ≤ call.upper_units)
      (upper : call.upper_units ≤ attempt.future) :
      Move t { t with
        attempts := t.attempts.put call.attempt_id
          { attempt with future := attempt.future - call.upper_units }
        calls := t.calls.put call_id call }
  | released {t : Tables} {call_id : String} : Move t (releasePrepared t call_id)
  | sent {t : Tables} {call_id : String} {call call' : CallRow}
      (stored : t.calls.get? call_id = some call) (same : CallRow.Same call call') :
      Move t { t with calls := t.calls.put call_id call' }
  | marked {t : Tables} {mark : String → CallRow → CallRow}
      (same : ∀ id call, CallRow.Same call (mark id call)) :
      Move t { t with calls := t.calls.mapValues mark }
  | closed {t : Tables} {attempt_id : String} {close : AttemptRow → AttemptRow}
      (kept : ∀ attempt, (close attempt).currency = attempt.currency ∧
        (close attempt).reserved = attempt.reserved)
      (ended : ∀ attempt, (close attempt).state ≠ .active ∧ (close attempt).future = 0) :
      Move t { t with attempts := t.attempts.modify attempt_id close }

abbrev Moves := Relation.ReflTransGen Move

structure Sound (t : Tables) : Prop where
  limits : ∀ currency limit, t.budgets.get? currency = some limit → 0 ≤ limit
  funded : ∀ id attempt, t.attempts.get? id = some attempt → (t.budgets.get? attempt.currency).isSome
  futures : ∀ id attempt, t.attempts.get? id = some attempt →
    0 ≤ attempt.future ∧ (attempt.state ≠ .active → attempt.future = 0)
  owned : ∀ id call, t.calls.get? id = some call → (t.attempts.get? call.attempt_id).isSome
  uppers : ∀ id call, t.calls.get? id = some call → 0 ≤ call.upper_units
  settled : ∀ id call, t.calls.get? id = some call → (call.state = .settled ↔ call.actual_units.isSome)

-- What is held

variable {scope : Scope} {id call_id : String} {attempt attempt' : AttemptRow}
open Tables (counts heldBy)
open Scope (covers allowance)

theorem held_eq (t : Tables) (currency : String) : held t currency = t.heldBy (.currency currency) := by
  unfold held heldBy
  congr 1
  · simp [covers]
  · refine congrArg _ (funext fun _ => funext fun call => ?_)
    simp only [counts, covers, CallRow.held]
    by_cases hsent : call.state = .notSent
    · simp [hsent]
    · simp [hsent]

theorem counts_eq (t : Tables) (call : CallRow) : t.counts scope call =
    ((t.attempts.get? call.attempt_id).map AttemptRow.currency).any (scope.covers call.attempt_id) := by
  simp [counts, any_map]

def Stable (t t' : Tables) : Prop :=
  ∀ id, (t.attempts.get? id).isSome → (t'.attempts.get? id).map AttemptRow.currency =
    (t.attempts.get? id).map AttemptRow.currency

theorem Stable.counts (h : Stable t t')
    (howned : (t.attempts.get? call.attempt_id).isSome) (hid : call'.attempt_id = call.attempt_id) :
    t'.counts scope call' = t.counts scope call := by
  rw [counts_eq, counts_eq, hid, h _ howned]

theorem counts_of_owner (h : t.attempts.get? call.attempt_id = some attempt) :
    t.counts scope call = scope.covers call.attempt_id attempt.currency := by
  simp [counts, h]

def futureOf (scope : Scope) (id : String) (attempt : AttemptRow) : Int :=
  if scope.covers id attempt.currency then attempt.future else 0

def heldOf (t : Tables) (scope : Scope) (call : CallRow) : Int :=
  if t.counts scope call then call.held else 0

theorem heldBy_eq (t : Tables) (scope : Scope) : t.heldBy scope =
    t.attempts.total (futureOf scope) + t.calls.total fun _ => heldOf t scope := rfl

theorem CallRow.Same.held (h : CallRow.Same call call') : call'.held = call.held := by
  simp only [CallRow.held, h.notSent, h.actual_units, h.upper_units]

theorem stable_put (hstored : t.attempts.get? id = some attempt)
    (hcurrency : attempt'.currency = attempt.currency)
    (ht : t'.attempts = t.attempts.put id attempt') : Stable t t' := by
  intro other _
  rw [ht, get?_put]
  by_cases hid : id = other
  · subst hid
    simp [hstored, hcurrency]
  · simp [hid]

theorem stable_modify (hcurrency : ∀ attempt, (close attempt).currency = attempt.currency)
    (ht : t'.attempts = t.attempts.modify id close) : Stable t t' := by
  intro other _
  rw [ht, get?_modify]
  by_cases hid : other = id
  · subst hid
    simp only [if_true, map_map]
    exact congrArg (Option.map · _) (funext hcurrency)
  · simp [hid]

theorem heldOf_congr {calls : Dict String CallRow} (hstable : Stable t t')
    (howned : ∀ id call, calls.get? id = some call → (t.attempts.get? call.attempt_id).isSome) :
    (calls.total fun _ => heldOf t' scope) = calls.total fun _ => heldOf t scope :=
  total_congr fun id call hcall => by
    unfold heldOf
    rw [hstable.counts (howned id call hcall) rfl]

theorem owned_put (hs : Sound t) (stored : t.calls.get? call_id = some call)
    (hid : call'.attempt_id = call.attempt_id) : ∀ id other, (t.calls.put call_id call').get? id = some other →
      (t.attempts.get? other.attempt_id).isSome := by
  intro id other hother
  rcases of_put hother with ⟨-, rfl⟩ | ⟨-, hother⟩
  · rw [hid]; exact hs.owned call_id call stored
  · exact hs.owned id other hother

theorem heldBy_reserved (hs : Sound t) (fresh : t.attempts.get? id = none)
    (future : attempt.future = attempt.reserved) :
    heldBy { t with attempts := t.attempts.put id attempt } scope = t.heldBy scope +
      if scope.covers id attempt.currency then attempt.reserved else 0 := by
  have hstable : Stable t { t with attempts := t.attempts.put id attempt } := by
    intro other hother
    have hne : id ≠ other := by
      rintro rfl
      simp [fresh] at hother
    simp [get?_put_of_ne hne]
  rw [heldBy_eq, heldBy_eq, total_put_new fresh, heldOf_congr hstable hs.owned, ← future, futureOf]
  exact add_right_comm ..

theorem heldBy_prepared (hs : Sound t)
    (stored : t.attempts.get? call.attempt_id = some attempt) (fresh : t.calls.get? call_id = none)
    (state : call.state = .prepared) (actual : call.actual_units = none) : heldBy { t with
      attempts := t.attempts.put call.attempt_id
        { attempt with future := attempt.future - call.upper_units }
      calls := t.calls.put call_id call } scope = t.heldBy scope := by
  have hput := total_put (f := futureOf scope)
    (v := { attempt with future := attempt.future - call.upper_units }) stored
  have hstable : Stable t { t with
      attempts := t.attempts.put call.attempt_id
        { attempt with future := attempt.future - call.upper_units }
      calls := t.calls.put call_id call } :=
    stable_put stored
      (show ({ attempt with future := attempt.future - call.upper_units } : AttemptRow).currency =
        attempt.currency from rfl) rfl
  have hheld : call.held = call.upper_units := by simp [CallRow.held, state, actual]
  rw [heldBy_eq, heldBy_eq, total_put_new fresh, heldOf_congr hstable hs.owned]
  rw [heldOf, hstable.counts (by simp [stored]) rfl, counts_of_owner stored, hheld]
  simp only [futureOf] at hput ⊢
  split at hput
  case isTrue hc => rw [if_pos hc]; omega
  case isFalse hc => rw [if_neg hc]; omega

theorem heldBy_sent (stored : t.calls.get? call_id = some call) (same : CallRow.Same call call') :
    heldBy { t with calls := t.calls.put call_id call' } scope = t.heldBy scope := by
  have hput := total_put (f := fun _ => heldOf t scope) (v := call') stored
  have hheld : heldOf t scope call' = heldOf t scope call := by
    simp only [heldOf, same.held, counts_eq, same.attempt_id]
  rw [hheld] at hput
  exact congrArg _ (add_right_cancel hput)

theorem heldBy_marked (same : ∀ id call, CallRow.Same call (mark id call)) :
    heldBy { t with calls := t.calls.mapValues mark } scope = t.heldBy scope := by
  rw [heldBy_eq, heldBy_eq, total_mapValues]
  refine congrArg _ (total_congr fun id call _ => ?_)
  show heldOf t scope (mark id call) = heldOf t scope call
  simp only [heldOf, (same id call).held, counts_eq, (same id call).attempt_id]

theorem heldBy_closed {close : AttemptRow → AttemptRow} (hs : Sound t)
    (hcurrency : ∀ attempt, (close attempt).currency = attempt.currency)
    (ended : ∀ attempt, (close attempt).future = 0) :
    heldBy { t with attempts := t.attempts.modify id close } scope ≤ t.heldBy scope := by
  have hstable : Stable t { t with attempts := t.attempts.modify id close } :=
    stable_modify hcurrency rfl
  rw [heldBy_eq, heldBy_eq, heldOf_congr hstable hs.owned, Dict.modify, Dict.total_mapValues]
  have hle : (t.attempts.total fun id' attempt =>
      futureOf scope id' (if id' = id then close attempt else attempt)) ≤
      t.attempts.total (futureOf scope) := by
    refine total_mono fun other attempt hattempt => ?_
    have hfuture := (hs.futures other attempt hattempt).1
    unfold futureOf
    split
    · rw [ended, hcurrency]
      split <;> omega
    · exact le_refl _
  exact Int.add_le_add_right hle _

@[simp] theorem regain_currency : (attempt.regain upper).currency = attempt.currency := by
  unfold AttemptRow.regain
  split <;> rfl

@[simp] theorem regain_reserved : (attempt.regain upper).reserved = attempt.reserved := by
  unfold AttemptRow.regain
  split <;> rfl

@[simp] theorem regain_state : (attempt.regain upper).state = attempt.state := by
  unfold AttemptRow.regain
  split <;> rfl

theorem regain_future : (attempt.regain upper).future =
    if attempt.state = .active then attempt.future + upper else attempt.future := by
  unfold AttemptRow.regain
  split <;> rfl

theorem releasePrepared_cases (t : Tables) (call_id : String) : releasePrepared t call_id = t ∨
    ∃ call, t.calls.get? call_id = some call ∧ call.state = .prepared ∧ releasePrepared t call_id = { t with
      calls := t.calls.put call_id { call with state := .notSent }
      attempts := t.attempts.modify call.attempt_id (·.regain call.upper_units) } := by
  unfold releasePrepared
  split
  case h_1 call stored =>
    split
    case isTrue prepared => exact .inr ⟨call, stored, prepared, rfl⟩
    · exact .inl rfl
  · exact .inl rfl

section
variable (hs : Sound t) (stored : t.calls.get? call_id = some call) (prepared : call.state = .prepared)
include hs stored prepared

theorem prepared_held : call.held = call.upper_units := by
  have hsettled := hs.settled call_id call stored
  rw [prepared] at hsettled
  have hactual : call.actual_units = none := by simpa using hsettled
  simp [CallRow.held, prepared, hactual]

theorem regained_le : ((t.attempts.modify call.attempt_id (·.regain call.upper_units)).total (futureOf scope)) ≤
      t.attempts.total (futureOf scope) + heldOf t scope call := by
  have hupper := hs.uppers call_id call stored
  obtain ⟨owner, howner⟩ := isSome_iff_exists.mp (hs.owned call_id call stored)
  have hone : heldOf t scope call = t.attempts.total fun id attempt =>
      if id = call.attempt_id then
        (if scope.covers call.attempt_id attempt.currency then call.upper_units else 0)
      else 0 := by
    rw [total_single, howner, heldOf, counts_of_owner howner, prepared_held hs stored prepared]
    rfl
  rw [hone, ← Dict.total_add, Dict.modify, Dict.total_mapValues]
  refine Dict.total_mono fun id attempt _ => ?_
  by_cases hid : id = call.attempt_id
  · subst hid
    simp only [futureOf, if_true, regain_currency, regain_future]
    split
    · split <;> omega
    · exact le_refl _
  · simp [hid]

end

theorem heldBy_released (hs : Sound t) : (releasePrepared t call_id).heldBy scope ≤ t.heldBy scope := by
  obtain hidle | ⟨call, stored, prepared, hreleased⟩ := releasePrepared_cases t call_id
  · rw [hidle]
  · rw [hreleased]
    have hstable : Stable t { t with
        calls := t.calls.put call_id { call with state := .notSent }
        attempts := t.attempts.modify call.attempt_id (·.regain call.upper_units) } :=
      stable_modify (fun _ => regain_currency) rfl
    have hcalls := total_put (f := fun _ => heldOf t scope)
      (v := { call with state := .notSent }) stored
    have hnone : heldOf t scope { call with state := .notSent } = 0 := by
      simp [heldOf, CallRow.held]
    have hregained : total _ (futureOf scope) ≤ _ := regained_le hs stored prepared
    rw [heldBy_eq, heldBy_eq, heldOf_congr hstable]
    · dsimp only
      omega
    · exact owned_put hs stored rfl

-- Settlements

/-- The part of a settlement that neither the call nor its attempt has left. -/
def Confirmed.uncovered (confirmed : Confirmed) : Int :=
  max 0 (confirmed.actual - confirmed.call.actual_units.getD confirmed.call.upper_units -
    confirmed.attempt.future)

structure Confirmed.Of (confirmed : Confirmed) (call_id : String) (t : Tables) : Prop where
  call : t.calls.get? call_id = some confirmed.call
  attempt : t.attempts.get? confirmed.call.attempt_id = some confirmed.attempt
  sent : confirmed.call.state ≠ .notSent
  grown : ∀ previous ∈ confirmed.call.actual_units, previous ≤ confirmed.actual

theorem confirm_of (h : confirm L settlement t = .ok (some confirmed)) : confirmed.Of settlement.call_id t := by
  unfold confirm at h
  simp only [bind_ok, need_ok] at h
  obtain ⟨event, -, provider, -, amount, -, h⟩ := h
  split at h
  · simp only [bind_ok, pure_ok] at h
    obtain ⟨_, -, h⟩ := h
    cases h
  · simp only [bind_ok, need_ok, ensure_ok, pure_ok] at h
    obtain ⟨call, hcall, _, hstate, attempt, hattempt, _, -, _, -, _, hgrown, h⟩ := h
    cases h
    refine ⟨hcall, hattempt, ?_, fun previous hprevious => ?_⟩
    · rintro hnot
      rw [hnot] at hstate
      simp at hstate
    · have hprevious : call.actual_units = some previous := hprevious
      rw [hprevious] at hgrown
      simpa using hgrown

@[simp] theorem settle_currency : (attempt.settle call actual).currency = attempt.currency := by
  unfold AttemptRow.settle
  split
  · rfl
  · split <;> rfl

@[simp] theorem settle_reserved : (attempt.settle call actual).reserved = attempt.reserved := by
  unfold AttemptRow.settle
  split
  · rfl
  · split <;> rfl

theorem settle_future_le (hs : Sound t) (stored : t.attempts.get? id = some attempt)
    (hbound : actual ≤ call.upper_units) : (attempt.settle call actual).future + actual ≤ attempt.future +
      call.actual_units.getD call.upper_units +
        max 0 (actual - call.actual_units.getD call.upper_units - attempt.future) := by
  obtain ⟨hnonneg, hended⟩ := hs.futures id attempt stored
  dsimp only [AttemptRow.settle]
  split
  case isTrue hstate =>
    have hzero := hended hstate
    omega
  · rw [if_neg (by omega)]
    dsimp only
    omega

theorem heldBy_book (hs : Sound t) (hc : confirmed.Of call_id t)
    (hbound : scope.covers confirmed.call.attempt_id confirmed.attempt.currency →
      confirmed.actual ≤ confirmed.call.upper_units) : (book call_id confirmed t).heldBy scope ≤ t.heldBy scope +
      if scope.covers confirmed.call.attempt_id confirmed.attempt.currency then confirmed.uncovered else 0 := by
  obtain ⟨event, provider, actual, call, attempt⟩ := confirmed
  obtain ⟨hcall, hattempt, hsent, -⟩ := hc
  dsimp only at *
  have hcalls := total_put (f := fun _ => heldOf t scope)
    (v := call.settle actual provider) hcall
  have hattempts := total_put (f := futureOf scope) (v := attempt.settle call actual) hattempt
  let booked := book call_id ⟨event, provider, actual, call, attempt⟩ t
  have hstable : Stable t booked := stable_put hattempt settle_currency rfl
  have hkept : (booked.calls.total fun _ => heldOf booked scope) = booked.calls.total fun _ => heldOf t scope :=
    heldOf_congr hstable (owned_put hs hcall (show (call.settle actual provider).attempt_id = _ from rfl))
  have hcounts : t.counts scope call = _ := counts_of_owner hattempt
  have hold : heldOf t scope call =
      if scope.covers call.attempt_id attempt.currency then
        call.actual_units.getD call.upper_units else 0 := by
    simp [heldOf, hcounts, CallRow.held, hsent]
  have hnew : heldOf t scope (call.settle actual provider) =
      if scope.covers call.attempt_id attempt.currency then actual else 0 := by
    rw [heldOf, counts_eq]
    simp [CallRow.settle, CallRow.held, hattempt]
  rw [hold, hnew] at hcalls
  simp only [futureOf, settle_currency] at hattempts
  show booked.attempts.total (futureOf scope) + (booked.calls.total fun _ => heldOf booked scope) ≤ _
  rw [hkept, heldBy_eq]
  change (booked.attempts.total (futureOf scope) + _ = _) at hattempts
  change ((booked.calls.total fun _ => heldOf t scope) + _ = _) at hcalls
  split at hattempts
  case isTrue hcovers =>
    have hle := settle_future_le hs hattempt (hbound hcovers)
    simp only [hcovers, if_true] at hcalls ⊢
    simp only [Confirmed.uncovered]
    omega
  case isFalse hcovers =>
    simp only [hcovers] at hcalls ⊢
    simp at *
    omega

-- The rows stay sound

/-- An amount that is left is not negative, and nothing is left of what ended. -/
def AttemptRow.Left (attempt : AttemptRow) : Prop :=
  0 ≤ attempt.future ∧ (attempt.state ≠ .active → attempt.future = 0)

def CallRow.Priced (call : CallRow) : Prop :=
  0 ≤ call.upper_units ∧ (call.state = .settled ↔ call.actual_units.isSome)

theorem Stable.isSome (h : Stable t t') (hid : (t.attempts.get? id).isSome) : (t'.attempts.get? id).isSome := by
  have hsame := congrArg Option.isSome (h id hid)
  simpa [hid] using hsame

section
variable (hs : Sound t)
include hs

theorem Sound.write (hbudgets : t'.budgets = t.budgets) (hstable : Stable t t')
    (hattempts : ∀ id attempt', t'.attempts.get? id = some attempt' → (t.attempts.get? id).isSome ∧ attempt'.Left)
    (hcalls : ∀ id call', t'.calls.get? id = some call' →
      (t.attempts.get? call'.attempt_id).isSome ∧ call'.Priced) : Sound t' where
  limits := hbudgets ▸ hs.limits
  funded id attempt' h := by
    obtain ⟨hsome, -⟩ := hattempts id attempt' h
    obtain ⟨attempt, hattempt⟩ := isSome_iff_exists.mp hsome
    have hsame := hstable id hsome
    rw [h, hattempt, map_some, map_some] at hsame
    rw [hbudgets, some.inj hsame]
    exact hs.funded id attempt hattempt
  futures id attempt' h := (hattempts id attempt' h).2
  owned id call' h := hstable.isSome (hcalls id call' h).1
  uppers id call' h := (hcalls id call' h).2.1
  settled id call' h := (hcalls id call' h).2.2

theorem Sound.left : ∀ id attempt, t.attempts.get? id = some attempt →
    (t.attempts.get? id).isSome ∧ attempt.Left :=
  fun id attempt h => ⟨by simp [h], hs.futures id attempt h⟩

theorem Sound.priced : ∀ id call, t.calls.get? id = some call →
    (t.attempts.get? call.attempt_id).isSome ∧ call.Priced :=
  fun id call h => ⟨hs.owned id call h, hs.uppers id call h, hs.settled id call h⟩

theorem Sound.left_put (stored : t.attempts.get? id = some attempt)
    (hleft : attempt'.Left) : ∀ other row, (t.attempts.put id attempt').get? other = some row →
      (t.attempts.get? other).isSome ∧ row.Left := by
  intro other row hrow
  rcases of_put hrow with ⟨hid, rfl⟩ | ⟨-, hrow⟩
  · exact ⟨by simp [← hid, stored], hleft⟩
  · exact hs.left other row hrow

theorem Sound.left_modify (hleft : ∀ attempt, AttemptRow.Left attempt → (change attempt).Left) :
    ∀ other row, (t.attempts.modify id change).get? other = some row →
      (t.attempts.get? other).isSome ∧ row.Left := by
  intro other row hrow
  rw [get?_modify] at hrow
  split at hrow
  case isTrue hid =>
    obtain ⟨attempt, hattempt, rfl⟩ := map_eq_some_iff.mp hrow
    exact ⟨by simp [hattempt], hleft attempt (hs.futures other attempt hattempt)⟩
  · exact hs.left other row hrow

theorem Sound.priced_put (howned : (t.attempts.get? call'.attempt_id).isSome)
    (hpriced : call'.Priced) : ∀ other row, (t.calls.put call_id call').get? other = some row →
      (t.attempts.get? row.attempt_id).isSome ∧ row.Priced := by
  intro other row hrow
  rcases of_put hrow with ⟨-, rfl⟩ | ⟨-, hrow⟩
  · exact ⟨howned, hpriced⟩
  · exact hs.priced other row hrow

end

theorem CallRow.Same.priced (h : CallRow.Same call call') (hp : call.Priced) : call'.Priced :=
  ⟨h.upper_units ▸ hp.1, by rw [h.settled, h.actual_units]; exact hp.2⟩

theorem regain_left (hupper : 0 ≤ upper) (h : attempt.Left) : (attempt.regain upper).Left := by
  obtain ⟨hnonneg, hended⟩ := h
  unfold AttemptRow.Left
  rw [regain_future, regain_state]
  split
  case isTrue hactive => exact ⟨by omega, fun hne => absurd hactive hne⟩
  · exact ⟨hnonneg, hended⟩

theorem settle_left (h : attempt.Left) : (attempt.settle call actual).Left := by
  dsimp only [AttemptRow.settle]
  split
  · exact h
  case isFalse hactive =>
    split
    · exact ⟨le_refl _, fun _ => rfl⟩
    · exact ⟨le_max_left .., fun hne => absurd hne hactive⟩

theorem Sound.released (hs : Sound t) : Sound (releasePrepared t call_id) := by
  obtain hidle | ⟨call, stored, prepared, hreleased⟩ := releasePrepared_cases t call_id
  · rwa [hidle]
  · rw [hreleased]
    have hupper := hs.uppers call_id call stored
    have hsettled := hs.settled call_id call stored
    rw [prepared] at hsettled
    refine hs.write rfl (stable_modify (fun _ => regain_currency) rfl)
      (hs.left_modify fun attempt => regain_left hupper)
      (hs.priced_put (hs.owned call_id call stored) ⟨hupper, ?_⟩)
    simpa using hsettled

theorem Sound.booked (hs : Sound t) (hc : confirmed.Of call_id t) : Sound (book call_id confirmed t) := by
  obtain ⟨event, provider, actual, call, attempt⟩ := confirmed
  obtain ⟨hcall, hattempt, -, -⟩ := hc
  refine hs.write rfl (stable_put hattempt settle_currency rfl)
    (hs.left_put hattempt (settle_left (hs.futures _ _ hattempt)))
    (hs.priced_put (by simp [CallRow.settle, hattempt]) ⟨hs.uppers call_id call hcall, ?_⟩)
  simp [CallRow.settle]

theorem Move.sound (hm : Move t t') (hs : Sound t) : Sound t' := by
  cases hm with
  | note => exact { hs with }
  | @configured currency limit fresh nonneg =>
    refine ⟨fun other found h => ?_, fun id attempt h => ?_, hs.futures, hs.owned, hs.uppers, hs.settled⟩
    · rcases of_put h with ⟨-, rfl⟩ | ⟨-, h⟩
      · exact nonneg
      · exact hs.limits other found h
    · have hfunded := hs.funded id attempt h
      rw [get?_put]
      split
      · rfl
      · exact hfunded
  | @reserved attempt_id attempt limit fresh future active nonneg budget room =>
    have hcases : ∀ id row, (t.attempts.put attempt_id attempt).get? id = some row →
        row = attempt ∨ t.attempts.get? id = some row := by
      intro id row hrow
      rcases of_put hrow with ⟨-, rfl⟩ | ⟨-, hrow⟩
      · exact .inl rfl
      · exact .inr hrow
    refine ⟨hs.limits, fun id row h => ?_, fun id row h => ?_, fun id call h => ?_, hs.uppers, hs.settled⟩
    · rcases hcases id row h with rfl | h
      · simp [budget]
      · exact hs.funded id row h
    · rcases hcases id row h with rfl | h
      · exact ⟨future ▸ nonneg, fun hne => absurd active hne⟩
      · exact hs.futures id row h
    · have howned := hs.owned id call h
      rw [get?_put]
      split
      · rfl
      · exact howned
  | @prepared call_id attempt call stored active fresh state actual nonneg upper =>
    refine hs.write rfl (stable_put stored
      (show ({ attempt with future := attempt.future - call.upper_units } : AttemptRow).currency =
        attempt.currency from rfl) rfl)
      (hs.left_put stored ⟨?_, fun hne => absurd active hne⟩)
      (hs.priced_put (by simp [stored]) ⟨nonneg, by simp [state, actual]⟩)
    dsimp only
    omega
  | released => exact hs.released
  | @sent call_id call call' stored same =>
    refine hs.write rfl (fun _ _ => rfl) hs.left (hs.priced_put ?_ (same.priced ?_))
    · rw [same.attempt_id]
      exact hs.owned call_id call stored
    · exact (hs.priced call_id call stored).2
  | @marked mark same =>
    refine hs.write rfl (fun _ _ => rfl) hs.left fun id row hrow => ?_
    rw [get?_mapValues] at hrow
    obtain ⟨call, hcall, rfl⟩ := map_eq_some_iff.mp hrow
    obtain ⟨howned, hpriced⟩ := hs.priced id call hcall
    exact ⟨(same id call).attempt_id ▸ howned, (same id call).priced hpriced⟩
  | closed kept ended =>
    exact hs.write rfl (stable_modify (fun attempt => (kept attempt).1) rfl)
      (hs.left_modify fun attempt _ => ⟨(ended attempt).2.ge, fun _ => (ended attempt).2⟩)
      hs.priced

-- What is held stays within what was granted

theorem heldBy_zero (h : ∀ id attempt, t.attempts.get? id = some attempt →
    scope.covers id attempt.currency = false) : t.heldBy scope = 0 := by
  rw [heldBy_eq, total_zero, total_zero]
  · rfl
  · intro id call _
    rw [heldOf, counts]
    cases howner : t.attempts.get? call.attempt_id with
    | none => simp
    | some owner => simp [h _ _ howner]
  · intro id attempt hattempt
    simp [futureOf, h id attempt hattempt]

theorem allowance_put (stored : t.attempts.get? id = some attempt)
    (hreserved : attempt'.reserved = attempt.reserved) (hbudgets : t'.budgets = t.budgets)
    (ht : t'.attempts = t.attempts.put id attempt') : scope.allowance t' = scope.allowance t := by
  cases scope with
  | currency c => rw [allowance, hbudgets, allowance]
  | attempt other =>
    simp only [allowance, ht, get?_put]
    by_cases hid : id = other
    · subst hid
      simp [stored, hreserved]
    · simp [hid]

theorem allowance_modify (hreserved : ∀ attempt, (change attempt).reserved = attempt.reserved)
    (hbudgets : t'.budgets = t.budgets) (ht : t'.attempts = t.attempts.modify id change) :
    scope.allowance t' = scope.allowance t := by
  cases scope with
  | currency c => rw [allowance, hbudgets, allowance]
  | attempt other =>
    simp only [allowance, ht, get?_modify]
    split
    · rw [map_map]
      exact congrArg (Option.map · _) (funext hreserved)
    · rfl

section
variable (h : Within t scope)
include h

theorem Within.of_le (hle : t'.heldBy scope ≤ t.heldBy scope)
    (hallowance : scope.allowance t' = scope.allowance t) : Within t' scope :=
  fun limit hlimit => hle.trans (h limit (hallowance ▸ hlimit))

theorem Within.released (hs : Sound t) : Within (releasePrepared t call_id) scope := by
  refine h.of_le (heldBy_released hs) ?_
  obtain hidle | ⟨call, -, -, hreleased⟩ := releasePrepared_cases t call_id
  · rw [hidle]
  · rw [hreleased]
    exact allowance_modify (fun _ => regain_reserved) rfl rfl

theorem Within.configured (hs : Sound t) (fresh : t.budgets.get? currency = none) (nonneg : 0 ≤ limit) :
    Within { t with budgets := t.budgets.put currency limit } scope := by
  intro granted hgranted
  show t.heldBy scope ≤ granted
  cases scope with
  | attempt other => exact h granted hgranted
  | currency c =>
    simp only [allowance, get?_put] at hgranted
    split at hgranted
    case isTrue hc =>
      cases hgranted
      -- without a budget there was no attempt either
      rw [heldBy_zero fun id attempt hattempt => ?_]
      · exact nonneg
      · have hfunded := hs.funded id attempt hattempt
        simp only [covers, decide_eq_false_iff_not]
        rintro rfl
        rw [← hc, fresh] at hfunded
        cases hfunded
    · exact h granted hgranted

theorem Within.reserved (hs : Sound t)
    (fresh : t.attempts.get? id = none) (future : attempt.future = attempt.reserved)
    (budget : t.budgets.get? attempt.currency = some limit)
    (room : attempt.reserved + t.heldBy (.currency attempt.currency) ≤ limit) :
    Within { t with attempts := t.attempts.put id attempt } scope := by
  intro granted hgranted
  rw [heldBy_reserved hs fresh future]
  cases scope with
  | currency c =>
    simp only [covers, decide_eq_true_eq]
    split
    case isTrue hc =>
      subst hc
      rw [mem_def, allowance, budget] at hgranted
      cases hgranted
      omega
    · rw [add_zero]
      exact h granted hgranted
  | attempt other =>
    simp only [covers, decide_eq_true_eq]
    simp only [allowance, get?_put] at hgranted
    split
    case isTrue hid =>
      subst hid
      rw [if_pos rfl] at hgranted
      cases hgranted
      rw [heldBy_zero fun other row hrow => ?_]
      · omega
      · simp only [covers, decide_eq_false_iff_not]
        rintro rfl
        rw [fresh] at hrow
        cases hrow
    case isFalse hid =>
      rw [if_neg hid] at hgranted
      rw [add_zero]
      exact h granted hgranted

end

theorem Move.within (hm : Move t t') (hs : Sound t) (h : Within t scope) : Within t' scope := by
  cases hm with
  | note => exact h
  | configured fresh nonneg => exact h.configured hs fresh nonneg
  | reserved fresh future _ _ budget room => exact h.reserved hs fresh future budget room
  | @prepared call_id attempt call stored _ fresh state actual =>
    refine h.of_le (heldBy_prepared hs stored fresh state actual).le (allowance_put stored
      (show ({ attempt with future := attempt.future - call.upper_units } : AttemptRow).reserved =
        attempt.reserved from rfl) rfl rfl)
  | released => exact h.released hs
  | sent stored same => exact h.of_le (heldBy_sent stored same).le rfl
  | marked same => exact h.of_le (heldBy_marked same).le rfl
  | closed kept ended =>
    exact h.of_le (heldBy_closed hs (fun attempt => (kept attempt).1) fun attempt =>
      (ended attempt).2) (allowance_modify (fun attempt => (kept attempt).2) rfl rfl)

-- Totals only grow

structure CallRow.Grows (call call' : CallRow) : Prop where
  attempt_id : call'.attempt_id = call.attempt_id
  upper_units : call'.upper_units = call.upper_units
  actual_units : ∀ actual ∈ call.actual_units, ∃ actual' ∈ call'.actual_units, actual ≤ actual'

structure Lasts (t t' : Tables) : Prop where
  attempts : Stable t t'
  calls : ∀ id call, t.calls.get? id = some call → ∃ call', t'.calls.get? id = some call' ∧
    Grows call call'

theorem CallRow.Grows.refl : Grows call call := ⟨rfl, rfl, fun actual h => ⟨actual, h, le_refl _⟩⟩

theorem CallRow.Same.grows (h : CallRow.Same call call') : Grows call call' :=
  ⟨h.attempt_id, h.upper_units, fun actual ha => ⟨actual, h.actual_units ▸ ha, le_refl _⟩⟩

theorem Lasts.bounded (h : Lasts t t') (hs : Sound t) (hb : Bounded t' scope) : Bounded t scope := by
  intro id call hcall hcounts actual hactual
  obtain ⟨call', hcall', hid, hupper, hgrown⟩ := h.calls id call hcall
  obtain ⟨actual', hactual', hle⟩ := hgrown actual hactual
  have hcounts' : t'.counts scope call' := by
    rw [h.attempts.counts (hs.owned id call hcall) hid]
    exact hcounts
  have hbound := hb id call' hcall' hcounts' actual' hactual'
  omega

theorem lasts_calls (h : ∀ id call, t.calls.get? id = some call → t'.calls.get? id = some call) :
    ∀ id call, t.calls.get? id = some call → ∃ call', t'.calls.get? id = some call' ∧
      Grows call call' :=
  fun id call hcall => ⟨call, h id call hcall, .refl⟩

theorem lasts_put (stored : t.calls.get? call_id = some call) (grows : Grows call call')
    (ht : t'.calls = t.calls.put call_id call') :
    ∀ id found, t.calls.get? id = some found → ∃ found', t'.calls.get? id = some found' ∧
      Grows found found' := by
  intro id found hfound
  by_cases hid : call_id = id
  · subst hid
    rw [stored] at hfound
    cases hfound
    exact ⟨call', by simp [ht], grows⟩
  · exact ⟨found, by rw [ht, get?_put_of_ne hid, hfound], .refl⟩

theorem Lasts.released : Lasts t (releasePrepared t call_id) := by
  obtain hidle | ⟨call, stored, -, hreleased⟩ := releasePrepared_cases t call_id
  · rw [hidle]
    exact ⟨fun _ _ => rfl, lasts_calls fun _ _ h => h⟩
  · rw [hreleased]
    have grows : Grows call { call with state := .notSent } :=
      ⟨rfl, rfl, fun actual h => ⟨actual, h, le_refl _⟩⟩
    exact ⟨stable_modify (fun _ => regain_currency) rfl, lasts_put stored grows rfl⟩

theorem Move.lasts (hm : Move t t') : Lasts t t' := by
  cases hm with
  | note | configured => exact ⟨fun _ _ => rfl, lasts_calls fun _ _ h => h⟩
  | @reserved attempt_id attempt limit fresh =>
    refine ⟨fun other hother => ?_, lasts_calls fun _ _ h => h⟩
    have hne : attempt_id ≠ other := by
      rintro rfl
      simp [fresh] at hother
    simp [get?_put_of_ne hne]
  | @prepared call_id attempt call stored _ fresh =>
    refine ⟨stable_put stored
      (show ({ attempt with future := attempt.future - call.upper_units } : AttemptRow).currency =
        attempt.currency from rfl) rfl, lasts_calls fun id found hfound => ?_⟩
    simp [get?_put_new fresh hfound]
  | released => exact .released
  | sent stored same => exact ⟨fun _ _ => rfl, lasts_put stored same.grows rfl⟩
  | @marked mark same =>
    refine ⟨fun _ _ => rfl, fun id call hcall => ⟨mark id call, ?_, (same id call).grows⟩⟩
    simp [get?_mapValues, hcall]
  | closed kept =>
    exact ⟨stable_modify (fun attempt => (kept attempt).1) rfl, lasts_calls fun _ _ h => h⟩

theorem lasts_book (hc : confirmed.Of call_id t) : Lasts t (book call_id confirmed t) := by
  obtain ⟨event, provider, actual, call, attempt⟩ := confirmed
  obtain ⟨hcall, hattempt, -, hgrown⟩ := hc
  have grows : Grows call (call.settle actual provider) :=
    ⟨rfl, rfl, fun previous hprevious => ⟨actual, rfl, hgrown previous hprevious⟩⟩
  exact ⟨stable_put hattempt settle_currency rfl, lasts_put hcall grows rfl⟩

theorem booked_bound (hc : confirmed.Of call_id t) (hbounded : Bounded (book call_id confirmed t) scope)
    (hcovers : scope.covers confirmed.call.attempt_id confirmed.attempt.currency) :
    confirmed.actual ≤ confirmed.call.upper_units := by
  have hbooked : (book call_id confirmed t).calls.get? call_id =
      some (confirmed.call.settle confirmed.actual confirmed.provider_request_id) :=
    get?_put_self
  have howner : (t.attempts.get? confirmed.call.attempt_id).isSome := by simp [hc.attempt]
  have hsame : (confirmed.call.settle confirmed.actual confirmed.provider_request_id).attempt_id =
      confirmed.call.attempt_id := rfl
  refine hbounded call_id _ hbooked ?_ confirmed.actual rfl
  rw [(lasts_book hc).attempts.counts howner hsame, counts_of_owner hc.attempt]
  exact hcovers

theorem Within.booked (hs : Sound t) (hc : confirmed.Of call_id t)
    (h : Within t scope) (hbounded : Bounded (book call_id confirmed t) scope)
    (hroom : scope.covers confirmed.call.attempt_id confirmed.attempt.currency →
      ∀ limit ∈ scope.allowance t, t.heldBy scope + confirmed.uncovered ≤ limit) :
    Within (book call_id confirmed t) scope := by
  have hallowance : scope.allowance (book call_id confirmed t) = scope.allowance t :=
    allowance_put hc.attempt settle_reserved rfl rfl
  have hle : (book call_id confirmed t).heldBy scope ≤ _ := heldBy_book hs hc (booked_bound hc hbounded)
  intro limit hlimit
  rw [hallowance] at hlimit
  split at hle
  case isTrue hcovers => exact hle.trans (hroom hcovers limit hlimit)
  · exact hle.trans (by simpa using h limit hlimit)

end Karajan.Resources
