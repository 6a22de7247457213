import Karajan.Resources.Conservation
import Karajan.Lib.Fleet

/-!
# Requests to the provider

The request goes out after two transactions, with recovery, revocation and other
submissions between them. A call row moves along a few transitions, whoever
makes them; the submission that created it is the only one to send it.
-/

namespace Karajan.Resources

open Resources List Dict Check
variable {call_id id : String} {call call' call'' : CallRow}

-- Transitions of a call

inductive CallState.Next : CallState → CallState → Prop
  | withdrawn : Next .prepared .notSent
  | intended : Next .prepared .sendPending
  | lost : Next .sendPending .sendUnknown
  | settled : Next .sendPending .settled
  | settledLate : Next .sendUnknown .settled

structure CallRow.Moves (call call' : CallRow) : Prop where
  attempt_id : call'.attempt_id = call.attempt_id
  logical_call_id : call'.logical_call_id = call.logical_call_id
  state : call'.state = call.state ∨ CallState.Next call.state call'.state
  notSent : call.state = .notSent → call' = call

theorem CallRow.Moves.refl (call : CallRow) : call.Moves call := ⟨rfl, rfl, .inl rfl, fun _ => rfl⟩

/-- The calls of two tables are the same ones, related in pairs. -/
def Follows (R : CallRow → CallRow → Prop) (t t' : Tables) : Prop :=
  ∀ id, Option.Rel R (t.calls.get? id) (t'.calls.get? id)

namespace Follows

theorem of_eq (hR : ∀ call, R call call) (h : t'.calls = t.calls) : Follows R t t' := by
  intro id
  rw [h]
  cases t.calls.get? id with
  | none => exact .none
  | some call => exact .some (hR call)

section
variable (h : Follows R t t')
include h

theorem mono (himp : ∀ call call', R call call' → R' call call') : Follows R' t t' := by
  intro id
  have hid := h id
  generalize t.calls.get? id = row at hid
  generalize t'.calls.get? id = row' at hid
  cases hid with
  | none => exact .none
  | some hr => exact .some (himp _ _ hr)

theorem comp (h' : Follows R' t' t'')
    (himp : ∀ call call' call'', R call call' → R' call' call'' → R'' call call'') : Follows R'' t t'' := by
  intro id
  have hid := h id
  have hid' := h' id
  generalize t.calls.get? id = row at hid
  generalize t'.calls.get? id = row' at hid hid'
  generalize t''.calls.get? id = row'' at hid'
  cases hid with
  | none => cases hid'; exact .none
  | some hr =>
    cases hid' with
    | some hr' => exact .some (himp _ _ _ hr hr')

theorem kept (hcall : t.calls.get? id = some call) : ∃ call', t'.calls.get? id = some call' ∧ R call call' := by
  have hid := h id
  rw [hcall] at hid
  generalize t'.calls.get? id = row' at hid
  cases hid with
  | some hr => exact ⟨_, rfl, hr⟩

theorem back (hcall : t'.calls.get? id = some call') : ∃ call, t.calls.get? id = some call ∧ R call call' := by
  have hid := h id
  rw [hcall] at hid
  generalize t.calls.get? id = row at hid
  cases hid with
  | some hr => exact ⟨_, rfl, hr⟩

end

theorem put (hR : ∀ call, R call call) (stored : t.calls.get? call_id = some call)
    (hr : R call call') (h : t'.calls = t.calls.put call_id call') : Follows R t t' := by
  intro id
  rw [h, get?_put]
  split
  case isTrue hid =>
    subst hid
    rw [stored]
    exact .some hr
  · exact of_eq hR rfl id

theorem mapValues (hr : ∀ id call, R call (f id call)) (h : t'.calls = t.calls.mapValues f) : Follows R t t' := by
  intro id
  rw [h, get?_mapValues]
  cases t.calls.get? id with
  | none => exact .none
  | some call => exact .some (hr id call)

end Follows

-- Each operation

def CallRow.Released (call call' : CallRow) : Prop :=
  call' = call ∨ call.state = .prepared ∧ call' = { call with state := .notSent }

theorem CallRow.Released.moves (h : call.Released call') : call.Moves call' := by
  rcases h with rfl | ⟨hstate, rfl⟩
  · exact .refl _
  · exact ⟨rfl, rfl, .inr (hstate ▸ .withdrawn), fun h => by simp [hstate] at h⟩

theorem CallRow.Released.trans (h : call.Released call') (h' : call'.Released call'') : call.Released call'' := by
  rcases h with rfl | ⟨hstate, rfl⟩
  · exact h'
  · rcases h' with rfl | ⟨hprepared, -⟩
    · exact .inr ⟨hstate, rfl⟩
    · cases hprepared

theorem releasePrepared_follows : Follows CallRow.Released t (releasePrepared t call_id) := by
  unfold releasePrepared
  split
  case h_1 call stored =>
    split
    case isTrue hstate => exact .put (fun _ => .inl rfl) stored (.inr ⟨hstate, rfl⟩) rfl
    · exact .of_eq (fun _ => .inl rfl) rfl
  · exact .of_eq (fun _ => .inl rfl) rfl

theorem foldl_follows {l : List String} : Follows CallRow.Released t (l.foldl releasePrepared t) := by
  induction l generalizing t with
  | nil => exact .of_eq (fun _ => .inl rfl) rfl
  | cons id l ih => exact releasePrepared_follows.comp ih fun _ _ _ h h' => h.trans h'

theorem releaseAll_follows {of : CallRow → Bool} : Follows CallRow.Released t (releaseAll t of) :=
  foldl_follows

theorem lose_moves : call.Moves call.lose := by
  unfold CallRow.lose
  split
  case isTrue h => exact ⟨rfl, rfl, .inr (h ▸ .lost), fun hn => by simp [h] at hn⟩
  · exact .refl call

theorem recover_follows : Follows CallRow.Moves t (recover t) := by
  have hlost : Follows (fun call call' => call' = call.lose) (releaseAll t fun _ => true) (recover t) :=
    .mapValues (fun _ _ => rfl) rfl
  refine releaseAll_follows.comp hlost ?_
  rintro call call' call'' (rfl | ⟨hstate, rfl⟩) rfl
  · exact lose_moves
  · exact (CallRow.Released.moves (.inr ⟨hstate, rfl⟩))

theorem closed_follows : Follows CallRow.Moves t (releaseAll { t with attempts } of) := by
  have hsame : Follows (fun call call' => call' = call) t { t with attempts } := .of_eq (fun _ => rfl) rfl
  refine hsame.comp releaseAll_follows ?_
  rintro call call' call'' rfl h
  exact h.moves

theorem withdraw_follows : Follows CallRow.Moves t (withdraw sending reason t).2 :=
  fun other => (releasePrepared_follows.mono fun _ _ h => h.moves) other

theorem intendSend_intends (h : intendSend sending authorized priced t = .ok (none, t')) :
    ∃ attempt call, t.attempts.get? sending.attempt_id = some attempt ∧
      attempt.authorizes sending.fence authorized = true ∧
      t.calls.get? sending.call_id = some call ∧ call.state = .prepared ∧
      t' = { t with calls := t.calls.put sending.call_id { call with state := .sendPending } } := by
  simp only [intendSend, bind_ok, need_ok] at h
  obtain ⟨attempt, hattempt, h⟩ := h
  split at h
  · simp [withdraw, pure_ok] at h
  case isFalse hauthorized =>
    simp only [bind_ok, need_ok] at h
    obtain ⟨call, hcall, h⟩ := h
    split at h
    · simp [pure_ok] at h
    case isFalse hprepared =>
      split at h
      · simp [withdraw, pure_ok] at h
      · simp only [pair_ok, true_and] at h
        exact ⟨attempt, call, hattempt, by simpa using hauthorized, hcall, not_not.mp hprepared, h.symm⟩

theorem intendSend_follows (h : intendSend sending authorized priced t = .ok (answer, t')) :
    Follows CallRow.Moves t t' := by
  cases answer with
  | none =>
    obtain ⟨attempt, call, -, -, stored, hstate, rfl⟩ := intendSend_intends h
    have hmoves : call.Moves { call with state := .sendPending } :=
      ⟨rfl, rfl, .inr (by rw [hstate]; exact .intended), fun hn => by simp [hstate] at hn⟩
    exact .put CallRow.Moves.refl stored hmoves rfl
  | some receipt =>
    simp only [intendSend, bind_ok, need_ok] at h
    obtain ⟨attempt, -, h⟩ := h
    split at h
    · cases h
      exact withdraw_follows
    · simp only [bind_ok, need_ok] at h
      obtain ⟨call, -, h⟩ := h
      split at h
      · cases h
        exact .of_eq CallRow.Moves.refl rfl
      · split at h
        · cases h
          exact withdraw_follows
        · simp [pure_ok] at h

theorem loseResponse_follows (h : loseResponse sending t = .ok (receipt, t')) : Follows CallRow.Moves t t' := by
  have hcalls : t'.calls = t.calls.modify sending.call_id CallRow.lose := by
    simp only [loseResponse, bind_ok, need_ok] at h
    obtain ⟨call, -, h⟩ := h
    split at h
    · cases h; rfl
    · cases h; rfl
  refine .mapValues (fun id call => ?_) hcalls
  split
  · exact lose_moves
  · exact .refl call

theorem confirm_sent (h : confirm L settlement t = .ok (some confirmed)) :
    t.calls.get? settlement.call_id = some confirmed.call ∧
      confirmed.call.state ∈ [CallState.sendPending, .sendUnknown, .settled] := by
  unfold confirm at h
  simp only [bind_ok, need_ok] at h
  obtain ⟨event, -, provider, -, amount, -, h⟩ := h
  split at h
  · simp only [bind_ok, pure_ok] at h
    obtain ⟨-, -, h⟩ := h
    cases h
  · simp only [bind_ok, need_ok, ensure_ok, pure_ok] at h
    obtain ⟨call, hcall, -, hstate, attempt, -, -, -, -, -, -, -, h⟩ := h
    cases h
    exact ⟨hcall, of_decide_eq_true hstate⟩

theorem settle_follows (h : settle L settlement t = .ok t') : Follows CallRow.Moves t t' := by
  simp only [settle, bind_ok] at h
  obtain ⟨found, hfound, h⟩ := h
  cases found with
  | none =>
    cases h
    exact .of_eq CallRow.Moves.refl rfl
  | some confirmed =>
    obtain ⟨hcall, hstate⟩ := confirm_sent hfound
    have hmoves : confirmed.call.Moves
        (confirmed.call.settle confirmed.actual confirmed.provider_request_id) := by
      refine ⟨rfl, rfl, ?_, fun hn => by simp [hn] at hstate⟩
      simp only [mem_cons, not_mem_nil, or_false] at hstate
      rcases hstate with hs | hs | hs
      · exact .inr (hs ▸ .settled)
      · exact .inr (hs ▸ .settledLate)
      · exact .inl hs.symm
    have hcalls : t'.calls = t.calls.put settlement.call_id
        (confirmed.call.settle confirmed.actual confirmed.provider_request_id) := by
      dsimp only at h
      split at h
      · cases h; rfl
      · cases h; rfl
    exact .put CallRow.Moves.refl hcall hmoves hcalls

-- A new call

/-- What the first transaction of a submission found where it prepares a call. -/
structure Creates (submission : Submission) (t : Tables) (sending : Sending) (t' : Tables) : Prop where
  attempt_id : sending.attempt_id = submission.attempt_id
  fence : submission.fence.int? = some sending.fence
  fresh : t.calls.get? sending.call_id = none
  row : ∃ attempt call, t.attempts.get? submission.attempt_id = some attempt ∧
    t'.calls = t.calls.put sending.call_id call ∧ call.state = .prepared ∧
    call.attempt_id = submission.attempt_id ∧
    (∀ logical_call_id, submission.logical_call_id = .str logical_call_id →
      call.logical_call_id = verifiedId attempt.profile (some logical_call_id)) ∧
    ∀ logical_call_id, call.logical_call_id = some logical_call_id →
      originalCall t submission.attempt_id logical_call_id = none

theorem readRequest_logical (h : readRequest L submission profile = .ok (request, logical))
    (hl : submission.logical_call_id = .str l) : logical = some l := by
  simp only [readRequest, bind_ok, pair_ok, hl, map_ok, need_ok] at h
  obtain ⟨prompt, -, tokens, -, found, ⟨text, htext, hfound⟩, -, rfl⟩ := h
  simp only [identity?, Json.str?, Option.filter_eq_some_iff, Option.some.injEq] at htext
  rw [← hfound, ← htext.1]

theorem plan_creates
    (h : plan L submission authorized priced t = .ok (.prepare attempt fence call port valid_until)) :
    submission.fence.int? = some fence ∧ t.attempts.get? submission.attempt_id = some attempt ∧
      call.state = .prepared ∧ call.attempt_id = submission.attempt_id ∧
      (∀ logical_call_id, submission.logical_call_id = .str logical_call_id →
        call.logical_call_id = verifiedId attempt.profile (some logical_call_id)) ∧
      ∀ logical_call_id, call.logical_call_id = some logical_call_id →
        originalCall t submission.attempt_id logical_call_id = none := by
  simp only [plan, bind_ok, orReject_ok] at h
  obtain ⟨⟨found, fence'⟩, hauthorized, port', -, ⟨request, logical⟩, hread, h⟩ := h
  split at h
  · simp only [bind_ok, pure_ok] at h
    obtain ⟨-, -, h⟩ := h
    cases h
  case h_2 hnone =>
    simp only [bind_ok, pure_ok, orReject_ok, need_ok] at h
    obtain ⟨until', -, upper, -, -, -, limit, -, -, -, h⟩ := h
    cases h
    simp only [authorize, bind_ok, need_ok, pair_ok] at hauthorized
    obtain ⟨row, hstored, number, hfence, -, -, rfl, rfl⟩ := hauthorized
    refine ⟨hfence, hstored, rfl, rfl, fun l hl => ?_, fun l hl => ?_⟩
    · rw [readRequest_logical hread hl]
    · have hl : verifiedId row.profile logical = some l := hl
      simpa [hl] using hnone

theorem submit_creates (h : submit L submission receipt_id call_id authorized priced t = .ok (.inr sending, t')) :
    Creates submission t sending t' := by
  unfold submit at h
  split at h
  · cases h
  · obtain ⟨_, -, h⟩ := bind_ok.mp h
    cases h
  · obtain ⟨_, -, h⟩ := bind_ok.mp h
    cases h
  case h_4 attempt fence call port valid_until hplan =>
    simp only [bind_ok, ensure_ok, pair_ok, Sum.inr.injEq, Option.isNone_iff_eq_none] at h
    obtain ⟨-, hfresh, t'', hinserted, rfl, rfl⟩ := h
    obtain ⟨hfence, hstored, hstate, hid, hlogical, hnew⟩ := plan_creates hplan
    simp only [insertReceipt, bind_ok, pure_ok] at hinserted
    obtain ⟨-, -, rfl⟩ := hinserted
    exact { attempt_id := rfl, fence := hfence, fresh := hfresh
            row := ⟨attempt, call, hstored, rfl, hstate, hid, hlogical, hnew⟩ }

theorem submit_answers (h : submit L submission receipt_id call_id authorized priced t = .ok (.inl receipt, t')) :
    t'.calls = t.calls := by
  unfold submit at h
  split at h
  case h_1 => cases h
  case h_4 =>
    obtain ⟨_, -, h⟩ := bind_ok.mp h
    obtain ⟨_, -, h⟩ := bind_ok.mp h
    cases h
  all_goals
    simp only [bind_ok, pure_ok, Prod.mk.injEq, insertReceipt] at h
    obtain ⟨-, ⟨-, -, rfl⟩, -, rfl⟩ := h
    rfl

-- The history of the submissions

/-- What a submission did, with the rows as they were then. -/
inductive Event
  /-- A call was prepared, under an attempt as it was before. -/
  | created (submission : Submission) (sending : Sending) (attempt : Option AttemptRow)
      (call : Option CallRow)
  /-- The intent to send was committed; the rows are those of the commit. -/
  | intended (sending : Sending) (attempt : Option AttemptRow) (call : Option CallRow) (now : Rat)
  | sent (sending : Sending) (call : Option CallRow)

def emit (L : Library) (s : State) : Action → Option Event
  | .submit submission receipt_id call_id authorized priced =>
    match submit L submission receipt_id call_id authorized priced s.tables with
    | .ok (.inr sending, t) => some (.created submission sending
        (s.tables.attempts.get? submission.attempt_id) (t.calls.get? sending.call_id))
    | _ => none
  | .advance index w =>
    match s.sendings[index]? with
    | some (sending, .prepared) =>
      match intendSend sending w.authorized w.priced s.tables with
      | .ok (none, t) => some (.intended sending (t.attempts.get? sending.attempt_id)
          (t.calls.get? sending.call_id) w.authorized)
      | _ => none
    | some (sending, .sent) => some (.sent sending (s.tables.calls.get? sending.call_id))
    | _ => none
  | _ => none

def Event.created? : Event → Option String
  | .created _ sending _ _ => some sending.call_id
  | _ => none

def Event.sent? : Event → Option String
  | .sent sending _ => some sending.call_id
  | _ => none

def CallState.intended : CallState → Bool
  | .sendPending | .sendUnknown | .settled => true
  | _ => false

def Authorised (before : List Event) : Event → Prop
  | .created submission sending attempt call => sending.call_id ∉ before.filterMap Event.created? ∧
      submission.attempt_id = sending.attempt_id ∧ submission.fence.int? = some sending.fence ∧
      ∃ owner row, attempt = some owner ∧ call = some row ∧ row.state = .prepared ∧
        row.attempt_id = submission.attempt_id ∧
        ∀ logical_call_id, submission.logical_call_id = .str logical_call_id →
          row.logical_call_id = verifiedId owner.profile (some logical_call_id)
  | .intended sending attempt call now =>
      (∃ submission owner row, .created submission sending owner row ∈ before) ∧
      (∃ row, attempt = some row ∧ row.state = .active ∧ row.fence = sending.fence ∧
        now < row.authorization_expires_at) ∧
      ∃ row, call = some row ∧ row.state = .sendPending
  | .sent sending call => sending.call_id ∉ before.filterMap Event.sent? ∧
      (∃ attempt row now, .intended sending attempt row now ∈ before) ∧
      ∃ row, call = some row ∧ row.state.intended = true

def OneCallEach (t : Tables) : Prop :=
  ∀ id id' call call' logical_call_id, t.calls.get? id = some call → t.calls.get? id' = some call' →
    call.attempt_id = call'.attempt_id → call.logical_call_id = some logical_call_id →
    call'.logical_call_id = some logical_call_id → id = id'

structure SendInv (s : State) (log : List Event) : Prop where
  justified : Justified Authorised log
  one_call : OneCallEach s.tables
  known : ∀ p ∈ s.sendings, ∃ submission owner row, Event.created submission p.1 owner row ∈ log
  stored : ∀ call_id ∈ log.filterMap Event.created?, (s.tables.calls.get? call_id).isSome
  distinct : (s.sendings.map fun p => p.1.call_id).Nodup
  unsent : ∀ p ∈ s.sendings, p.2 = .prepared ∨ p.2 = .sent → p.1.call_id ∉ log.filterMap Event.sent?
  intended : ∀ p ∈ s.sendings, p.2 = .sent → (∃ attempt row now, Event.intended p.1 attempt row now ∈ log) ∧
      ∃ row, s.tables.calls.get? p.1.call_id = some row ∧ row.state.intended = true

-- Steps that leave the submissions as they are

theorem CallState.Next.keeps_intended (h : CallState.Next state state')
    (hi : state.intended = true) : state'.intended = true := by
  cases h <;> first | rfl | cases hi

theorem CallRow.Moves.intended (h : call.Moves call') (hi : call.state.intended = true) :
    call'.state.intended = true := by
  rcases h.state with hs | hs
  · rw [hs]; exact hi
  · exact hs.keeps_intended hi

theorem OneCallEach.follows (h : OneCallEach t) (hf : Follows CallRow.Moves t t') : OneCallEach t' := by
  intro id id' call call' l hcall hcall' hattempt hl hl'
  obtain ⟨old, hold, hm⟩ := hf.back hcall
  obtain ⟨old', hold', hm'⟩ := hf.back hcall'
  exact h id id' old old' l hold hold' (by rw [← hm.attempt_id, ← hm'.attempt_id]; exact hattempt)
    (hm.logical_call_id ▸ hl) (hm'.logical_call_id ▸ hl')

theorem commit_follows (h : ∀ t', result = .ok t' → Follows CallRow.Moves t t') :
    Follows CallRow.Moves t (commit t result) := by
  unfold commit
  split
  case h_1 t' => exact h t' rfl
  · exact .of_eq CallRow.Moves.refl rfl

theorem configureBudget_follows (h : configureBudget L currency amount t = .ok t') :
    Follows CallRow.Moves t t' := by
  simp only [configureBudget, bind_ok, pure_ok] at h
  obtain ⟨limit, -, -, -, rfl⟩ := h
  exact .of_eq CallRow.Moves.refl rfl

theorem reserveAttempt_follows (h : reserveAttempt L request t = .ok t') : Follows CallRow.Moves t t' := by
  simp only [reserveAttempt, bind_ok, pure_ok] at h
  obtain ⟨-, -, fence, -, -, -, expires, -, amount, -, limit, -, -, -, -, -, rfl⟩ := h
  exact .of_eq CallRow.Moves.refl rfl

theorem originalCall_none (h : originalCall t attempt_id logical_call_id = none)
    (hcall : t.calls.get? id = some call) (hattempt : call.attempt_id = attempt_id) :
    call.logical_call_id ≠ some logical_call_id := by
  intro hlogical
  have hall := find?_eq_none.mp h (id, call) (get?_eq_some.mp hcall)
  simp [hattempt, hlogical] at hall

theorem OneCallEach.created (h : OneCallEach t) (hfresh : t.calls.get? call_id = none)
    (hnew : ∀ l, call.logical_call_id = some l → originalCall t call.attempt_id l = none)
    (hcalls : t'.calls = t.calls.put call_id call) : OneCallEach t' := by
  have hget : ∀ id row, t'.calls.get? id = some row → id = call_id ∧ row = call ∨
      t.calls.get? id = some row := by
    intro id row hrow
    rw [hcalls, get?_put] at hrow
    split at hrow
    case isTrue hid => cases hrow; exact .inl ⟨hid.symm, rfl⟩
    · exact .inr hrow
  intro id id' row row' l hrow hrow' hattempt hl hl'
  rcases hget id row hrow with ⟨rfl, rfl⟩ | hold
  · rcases hget id' row' hrow' with ⟨rfl, -⟩ | hold'
    · rfl
    · exact absurd hl' (originalCall_none (hnew l hl) hold' hattempt.symm)
  · rcases hget id' row' hrow' with ⟨rfl, rfl⟩ | hold'
    · exact absurd hl (originalCall_none (hnew l hl') hold hattempt)
    · exact h id id' row row' l hold hold' hattempt hl hl'

theorem sent_created (h : Justified Authorised log) (hm : k ∈ log.filterMap Event.sent?) :
    k ∈ log.filterMap Event.created? := by
  obtain ⟨e, he, hk⟩ := mem_filterMap.mp hm
  cases e with
  | created | intended => cases hk
  | sent sending call =>
    cases hk
    obtain ⟨before, hbefore, -, ⟨attempt, row, now, hintended⟩, -⟩ := h.of_mem he
    obtain ⟨before', hbefore', ⟨submission, owner, row, hcreated⟩, -⟩ := h.of_mem (hbefore.subset hintended)
    exact mem_filterMap.mpr ⟨_, hbefore'.subset hcreated, rfl⟩

variable {l : List (Sending × Stage)}

theorem mem_set_cases (hm : p ∈ l.set index (sending, stage)) :
    p = (sending, stage) ∨ p ∈ l := (mem_or_eq_of_mem_set hm).symm

theorem mem_set_self (hget : l[index]? = some (sending, stage)) :
    (sending, stage') ∈ l.set index (sending, stage') :=
  List.mem_set (List.getElem?_eq_some_iff.mp hget).1 _

theorem advance_follows : Follows CallRow.Moves t (advance L w t sending stage).1 := by
  cases stage with
  | prepared =>
    simp only [advance]
    split
    case h_1 hi => exact intendSend_follows hi
    case h_2 hi => exact intendSend_follows hi
    · exact .of_eq CallRow.Moves.refl rfl
  | sent =>
    simp only [advance]
    split
    · exact .of_eq CallRow.Moves.refl rfl
    · split
      case h_1 hs => exact settle_follows hs
      · exact .of_eq CallRow.Moves.refl rfl
  | unsettled =>
    simp only [advance]
    split
    case h_1 hl => exact loseResponse_follows hl
    · exact .of_eq CallRow.Moves.refl rfl
  | answered | stopped => exact .of_eq CallRow.Moves.refl rfl

theorem advance_stage (L : Library) (w : World) (t : Tables) (sending : Sending) (h : stage ≠ .prepared) :
    (advance L w t sending stage).2 ≠ .prepared ∧ (advance L w t sending stage).2 ≠ .sent := by
  cases stage with
  | prepared => exact absurd rfl h
  | sent =>
    simp only [advance]
    split
    · simp
    · split <;> simp
  | unsettled => simp only [advance]; split <;> simp
  | answered | stopped => simp [advance]

theorem emit_advance (hget : s.sendings[index]? = some (sending, stage)) :
    emit L s (.advance index w) = match stage with
      | .prepared => match intendSend sending w.authorized w.priced s.tables with
        | .ok (none, t) => some (.intended sending (t.attempts.get? sending.attempt_id)
            (t.calls.get? sending.call_id) w.authorized)
        | _ => none
      | .sent => some (.sent sending (s.tables.calls.get? sending.call_id))
      | _ => none := by
  simp only [emit, hget]
  cases stage <;> rfl

section
variable (h : SendInv s log)
include h

theorem SendInv.follows (hf : Follows CallRow.Moves s.tables t) : SendInv { s with tables := t } log :=
  { h with
    one_call := h.one_call.follows hf
    stored := fun call_id hm => by
      obtain ⟨call, hcall⟩ := Option.isSome_iff_exists.mp (h.stored call_id hm)
      obtain ⟨call', hcall', -⟩ := hf.kept hcall
      simp [hcall']
    intended := fun p hp hstage => by
      obtain ⟨hevent, row, hrow, hstate⟩ := h.intended p hp hstage
      obtain ⟨row', hrow', hm⟩ := hf.kept hrow
      exact ⟨hevent, row', hrow', hm.intended hstate⟩ }

-- A submission that prepares a call

theorem SendInv.created (hc : Creates submission s.tables sending t) :
    SendInv { tables := t, sendings := s.sendings ++ [(sending, .prepared)] }
      (log ++ [.created submission sending (s.tables.attempts.get? submission.attempt_id)
        (t.calls.get? sending.call_id)]) := by
  obtain ⟨attempt, call, hattempt, hcalls, hstate, hid, hverified, hlogical⟩ := hc.row
  have hcall : t.calls.get? sending.call_id = some call := by simp [hcalls]
  have hnew : sending.call_id ∉ log.filterMap Event.created? := by
    intro hm
    have hsome := h.stored _ hm
    simp [hc.fresh] at hsome
  have hother : ∀ p ∈ s.sendings, p.1.call_id ≠ sending.call_id := by
    intro p hp heq
    obtain ⟨submission', owner, row, hcreated⟩ := h.known p hp
    exact hnew (heq ▸ mem_filterMap.mpr ⟨_, hcreated, rfl⟩)
  refine { justified := h.justified.snoc ⟨hnew, hc.attempt_id.symm, hc.fence, attempt, call,
             hattempt, hcall, hstate, hid, hverified⟩
           one_call := h.one_call.created hc.fresh (fun l hl => hid ▸ hlogical l hl) hcalls
           known := ?_, stored := ?_, distinct := ?_, unsent := ?_, intended := ?_ }
  · intro p hp
    rcases mem_append.mp hp with hp | hp
    · obtain ⟨submission', owner, row, hcreated⟩ := h.known p hp
      exact ⟨submission', owner, row, mem_append_left _ hcreated⟩
    · cases mem_singleton.mp hp
      exact ⟨submission, _, _, mem_append_right _ (mem_singleton.mpr rfl)⟩
  · intro k hk
    show (t.calls.get? k).isSome
    rw [hcalls, get?_put]
    split
    · rfl
    case isFalse hne =>
      simp only [filterMap_append, mem_append, filterMap_cons, filterMap_nil,
        Event.created?, mem_singleton] at hk
      rcases hk with hk | hk
      · exact h.stored k hk
      · exact absurd hk.symm hne
  · exact nodup_snoc h.distinct hother
  · intro p hp hstage
    have hsent : ∀ owner row, (log ++ [Event.created submission sending owner row]).filterMap
        Event.sent? = log.filterMap Event.sent? := fun _ _ => by simp [Event.sent?]
    rw [hsent]
    rcases mem_append.mp hp with hp | hp
    · exact h.unsent p hp hstage
    · cases mem_singleton.mp hp
      exact fun hm => hnew (sent_created h.justified hm)
  · intro p hp hstage
    rcases mem_append.mp hp with hp | hp
    · obtain ⟨⟨attempt', row', now, hevent⟩, row, hrow, hi⟩ := h.intended p hp hstage
      refine ⟨⟨attempt', row', now, mem_append_left _ hevent⟩, row, ?_, hi⟩
      show t.calls.get? p.1.call_id = some row
      rw [hcalls, get?_put_of_ne (hother p hp).symm]
      exact hrow
    · cases mem_singleton.mp hp
      cases hstage

-- A submission that takes its next step

theorem SendInv.same_sending (hp : p ∈ s.sendings) (hq : q ∈ s.sendings)
    (heq : p.1.call_id = q.1.call_id) : p = q := by
  exact inj_on_of_nodup_map h.distinct hp hq heq

theorem SendInv.done (hget : s.sendings[index]? = some (sending, stage))
    (hdone : stage' ≠ .prepared ∧ stage' ≠ .sent) :
    SendInv { s with sendings := s.sendings.set index (sending, stage') } log := by
  have hmem : (sending, stage) ∈ s.sendings := mem_of_getElem? hget
  refine { h with known := ?_, distinct := (Fleet.keys_set hget).symm ▸ h.distinct, unsent := ?_
                  intended := ?_ }
  · intro p hp
    rcases mem_set_cases hp with rfl | hp
    · exact h.known (sending, stage) hmem
    · exact h.known p hp
  · intro p hp hstage
    rcases mem_set_cases hp with rfl | hp
    · rcases hstage with hstage | hstage
      · exact absurd hstage hdone.1
      · exact absurd hstage hdone.2
    · exact h.unsent p hp hstage
  · intro p hp hstage
    rcases mem_set_cases hp with rfl | hp
    · exact absurd hstage hdone.2
    · exact h.intended p hp hstage

theorem SendInv.intends (hget : s.sendings[index]? = some (sending, .prepared))
    (hi : intendSend sending authorized priced s.tables = .ok (none, t)) :
    SendInv { tables := t, sendings := s.sendings.set index (sending, .sent) }
      (log ++ [.intended sending (t.attempts.get? sending.attempt_id)
        (t.calls.get? sending.call_id) authorized]) := by
  have hmem : (sending, Stage.prepared) ∈ s.sendings := mem_of_getElem? hget
  have hf := h.follows (intendSend_follows hi)
  obtain ⟨attempt, call, hattempt, hauthorizes, hcall, hprepared, rfl⟩ := intendSend_intends hi
  simp only [AttemptRow.authorizes, Bool.and_eq_true, decide_eq_true_eq] at hauthorizes
  obtain ⟨⟨hfence, hactive⟩, hexpires⟩ := hauthorizes
  have hstored : (s.tables.calls.put sending.call_id { call with state := .sendPending }).get?
      sending.call_id = some { call with state := .sendPending } := get?_put_self
  have hsent : ∀ e : Event, e.sent? = none → (log ++ [e]).filterMap Event.sent? =
      log.filterMap Event.sent? := fun e he => by simp [he]
  have hcreated : ∀ e : Event, e.created? = none → (log ++ [e]).filterMap Event.created? =
      log.filterMap Event.created? := fun e he => by simp [he]
  refine { justified := h.justified.snoc ⟨h.known _ hmem, ⟨attempt, hattempt, hactive, hfence, hexpires⟩,
             _, hstored, rfl⟩
           one_call := hf.one_call, known := ?_, stored := ?_
           distinct := (Fleet.keys_set hget).symm ▸ h.distinct, unsent := ?_, intended := ?_ }
  · intro p hp
    rcases mem_set_cases hp with rfl | hp
    · obtain ⟨submission, owner, row, he⟩ := h.known (sending, .prepared) hmem
      exact ⟨submission, owner, row, mem_append_left _ he⟩
    · obtain ⟨submission, owner, row, he⟩ := h.known p hp
      exact ⟨submission, owner, row, mem_append_left _ he⟩
  · rw [hcreated _ rfl]
    exact hf.stored
  · rw [hsent _ rfl]
    intro p hp hstage
    rcases mem_set_cases hp with rfl | hp
    · exact h.unsent (sending, .prepared) hmem (.inl rfl)
    · exact h.unsent p hp hstage
  · intro p hp hstage
    rcases mem_set_cases hp with rfl | hp
    · exact ⟨⟨_, _, _, mem_append_right _ (mem_singleton.mpr rfl)⟩, _, hstored, rfl⟩
    · obtain ⟨⟨attempt', row', now, he⟩, hrow⟩ := hf.intended p hp hstage
      exact ⟨⟨attempt', row', now, mem_append_left _ he⟩, hrow⟩

theorem SendInv.sent (hmem : (sending, stage) ∈ s.sendings)
    (hdone : stage ≠ .prepared ∧ stage ≠ .sent) (he : Authorised log (.sent sending row)) :
    SendInv s (log ++ [.sent sending row]) := by
  have hcreated : (log ++ [Event.sent sending row]).filterMap Event.created? =
      log.filterMap Event.created? := by simp [Event.created?]
  refine { h with justified := h.justified.snoc he, known := ?_, stored := hcreated ▸ h.stored
                  unsent := ?_, intended := ?_ }
  · intro p hp
    obtain ⟨submission, owner, row', hevent⟩ := h.known p hp
    exact ⟨submission, owner, row', mem_append_left _ hevent⟩
  · intro p hp hstage hm
    simp only [filterMap_append, mem_append, filterMap_cons, filterMap_nil, Event.sent?, mem_singleton] at hm
    rcases hm with hm | hm
    · exact h.unsent p hp hstage hm
    · cases h.same_sending hp hmem hm
      rcases hstage with hstage | hstage
      · exact hdone.1 hstage
      · exact hdone.2 hstage
  · intro p hp hstage
    obtain ⟨⟨attempt, row', now, hevent⟩, hrow⟩ := h.intended p hp hstage
    exact ⟨⟨attempt, row', now, mem_append_left _ hevent⟩, hrow⟩

theorem SendInv.advance : SendInv (s.advance L index w) (log ++ (emit L s (.advance index w)).toList) := by
  cases hget : s.sendings[index]? with
  | none => simpa [State.advance, emit, hget] using h
  | some p =>
    obtain ⟨sending, stage⟩ := p
    have hmem : (sending, stage) ∈ s.sendings := mem_of_getElem? hget
    have hf : SendInv { s with tables := (Resources.advance L w s.tables sending stage).1 } log :=
      h.follows advance_follows
    rw [emit_advance hget]
    simp only [State.advance, hget]
    by_cases hprepared : stage = .prepared
    · subst hprepared
      dsimp only [Resources.advance] at hf ⊢
      generalize hi : intendSend sending w.authorized w.priced s.tables = outcome at hf ⊢
      rcases outcome with fault | ⟨_ | receipt, t⟩
      · have hdone : Stage.stopped ≠ .prepared ∧ Stage.stopped ≠ .sent := by simp
        simpa using hf.done hget hdone
      · exact h.intends hget hi
      · have hdone : Stage.answered receipt ≠ .prepared ∧ Stage.answered receipt ≠ .sent := by simp
        simpa using hf.done hget hdone
    · have hstage := advance_stage L w s.tables sending hprepared
      have hdone := hf.done hget hstage
      cases stage with
      | prepared => exact absurd rfl hprepared
      | sent =>
        obtain ⟨hintended, hrow⟩ := h.intended _ hmem rfl
        exact hdone.sent (mem_set_self hget) hstage ⟨h.unsent _ hmem (.inr rfl), hintended, hrow⟩
      | unsettled | answered receipt | stopped => simpa using hdone

theorem SendInv.crash : SendInv (s.crash index) log := by
  cases hget : s.sendings[index]? with
  | none =>
    have hsame : s.crash index = s := by
      unfold State.crash
      rw [modify_eq_self (getElem?_eq_none_iff.mp hget)]
    rw [hsame]
    exact h
  | some p =>
    obtain ⟨sending, stage⟩ := p
    have hmodify : ∀ f : Sending × Stage → Sending × Stage,
        s.sendings.modify index f = s.sendings.set index (f (sending, stage)) := by
      intro f
      rw [modify_eq_set_getElem?, hget]
      rfl
    unfold State.crash
    rw [hmodify]
    cases stage with
    | answered receipt | prepared | sent | unsettled | stopped => exact h.done hget ⟨by simp, by simp⟩

theorem SendInv.submit : SendInv (s.submit L submission receipt_id call_id authorized priced) (log ++
      (emit L s (.submit submission receipt_id call_id authorized priced)).toList) := by
  simp only [State.submit, emit]
  generalize hs : Resources.submit L submission receipt_id call_id authorized priced s.tables = outcome
  rcases outcome with fault | ⟨receipt | sending, t⟩
  · simpa using h
  · simpa using h.follows (.of_eq CallRow.Moves.refl (submit_answers hs))
  · exact h.created (submit_creates hs)

end

-- Runs

theorem sendInv_step (p : State × List Event) (a : Action) (h : SendInv p.1 p.2) :
    SendInv (p.1.step L a) (p.2 ++ (emit L p.1 a).toList) := by
  cases a with
  | configureBudget currency amount =>
    simpa [emit, State.step] using h.follows (commit_follows fun t' ht => configureBudget_follows ht)
  | reserveAttempt request =>
    simpa [emit, State.step] using h.follows (commit_follows fun t' ht => reserveAttempt_follows ht)
  | submit submission receipt_id call_id authorized priced => exact h.submit
  | advance index w => exact h.advance
  | settle settlement =>
    simpa [emit, State.step] using h.follows (commit_follows fun t' ht => settle_follows ht)
  | recover => simpa [emit, State.step] using h.follows recover_follows
  | finishAttempt attempt_id => simpa [emit, State.step, finishAttempt] using h.follows closed_follows
  | revokeAttempt attempt_id => simpa [emit, State.step, revokeAttempt] using h.follows closed_follows
  | crash index => simpa [emit, State.step] using h.crash

theorem sendInv_initial : SendInv State.empty [] where
  justified := .nil
  one_call := by
    intro id id' call call' l hcall
    simp [State.empty] at hcall
  known := by simp [State.empty]
  stored := by simp
  distinct := by simp [State.empty]
  unsent := by simp
  intended := by simp [State.empty]

theorem sendInv_reach (h : ((system L).traced (emit L)).Reach System.free p) : SendInv p.1 p.2 := by
  refine h.invariant ?_ fun p a hp _ => sendInv_step p a hp
  rintro ⟨s, log⟩ ⟨hs, hlog⟩
  cases hs
  cases hlog
  exact sendInv_initial

theorem step_moves (s : State) (a : Action) (hcall : s.tables.calls.get? id = some call) :
    ∃ call', (s.step L a).tables.calls.get? id = some call' ∧ call.Moves call' := by
  cases a with
  | configureBudget currency amount =>
    exact (commit_follows fun t' ht => configureBudget_follows ht).kept hcall
  | reserveAttempt request =>
    exact (commit_follows fun t' ht => reserveAttempt_follows ht).kept hcall
  | submit submission receipt_id call_id authorized priced =>
    simp only [State.step, State.submit]
    generalize hs : submit L submission receipt_id call_id authorized priced s.tables = outcome
    rcases outcome with fault | ⟨receipt | sending, t⟩
    · exact ⟨call, hcall, .refl call⟩
    · exact ⟨call, (submit_answers hs).symm ▸ hcall, .refl call⟩
    · obtain ⟨attempt, row, -, hcalls, -⟩ := (submit_creates hs).row
      refine ⟨call, ?_, .refl call⟩
      show t.calls.get? id = some call
      rw [hcalls, get?_put_new (submit_creates hs).fresh hcall]
  | advance index w =>
    simp only [State.step, State.advance]
    cases hget : s.sendings[index]? with
    | none => exact ⟨call, hcall, .refl call⟩
    | some p =>
      have hfollows : Follows CallRow.Moves s.tables (advance L w s.tables p.1 p.2).1 :=
        advance_follows
      exact hfollows.kept hcall
  | settle settlement => exact (commit_follows fun t' ht => settle_follows ht).kept hcall
  | recover => exact recover_follows.kept hcall
  | finishAttempt attempt_id | revokeAttempt attempt_id => exact closed_follows.kept hcall
  | crash index => exact ⟨call, hcall, .refl call⟩

/-- A request goes out once for its call, by the submission that created it and under the
authority that its attempt had when the intent to send was committed. -/
theorem calls_sent_once (h : ((system L).traced (emit L)).Reach System.free (s, log)) :
    Justified Authorised log ∧ (log.filterMap Event.created?).Nodup ∧
      (log.filterMap Event.sent?).Nodup ∧ OneCallEach s.tables ∧
      ∀ a id call, s.tables.calls.get? id = some call →
        ∃ call', (s.step L a).tables.calls.get? id = some call' ∧ call.Moves call' := by
  have hs : SendInv s log := sendInv_reach h
  refine ⟨hs.justified, hs.justified.nodup ?_, hs.justified.nodup ?_, hs.one_call,
    fun a id call hcall => step_moves s a hcall⟩
  · intro before e k he hk
    cases e with
    | created submission sending attempt call => cases hk; exact he.1
    | intended => cases hk
    | sent => cases hk
  · intro before e k he hk
    cases e with
    | created => cases hk
    | intended => cases hk
    | sent sending call => cases hk; exact he.1

/-- One call goes out and is settled. -/
theorem calls_sent_once_settled : ∃ (s : State) (log : List Event), log.filterMap Event.sent? = ["c1"] ∧
    Justified Authorised log ∧ (log.filterMap Event.created?).Nodup ∧
      (log.filterMap Event.sent?).Nodup ∧ OneCallEach s.tables ∧
      ∀ a id call, s.tables.calls.get? id = some call →
        ∃ call', (s.step Sample.library a).tables.calls.get? id = some call' ∧ call.Moves call' := by
  let M := (system Sample.library).traced (emit Sample.library)
  have hreach : M.Reach System.free (M.run (State.empty, []) Sample.settled) :=
    ⟨(State.empty, []), ⟨rfl, rfl⟩, .of_free_run⟩
  have hsent : (M.run (State.empty, []) Sample.settled).2.filterMap Event.sent? = ["c1"] := by
    decide +kernel
  exact ⟨_, _, hsent, calls_sent_once hreach⟩

end Karajan.Resources
