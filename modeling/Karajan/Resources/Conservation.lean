import Karajan.Resources.Moves

/-!
# Conservation of cash

Every transaction is a sequence of moves, and only a settlement also books a
total. What is held therefore stays within what was granted, but for a total that
raises an earlier one above what its attempt has left.
-/

namespace Karajan.Resources

open Check
variable {s : State} {id call_id : String}

-- Transactions

section
variable (h : Moves t t') (hs : Sound t)
include h hs

theorem Moves.sound : Sound t' := by
  induction h with
  | refl => exact hs
  | tail _ hm ih => exact hm.sound ih

theorem Moves.within (hw : Within t scope) : Within t' scope := by
  induction h with
  | refl => exact hw
  | tail hms hm ih => exact hm.within (Moves.sound hms hs) ih

theorem Moves.bounded (hb : Bounded t' scope) : Bounded t scope := by
  induction h with
  | refl => exact hb
  | tail hms hm ih => exact ih (hm.lasts.bounded (Moves.sound hms hs) hb)

end

theorem note_moves {receipts usage} : Moves t { t with receipts := receipts, usage := usage } :=
  .single .note

theorem foldl_moves {l : List String} : Moves t (l.foldl releasePrepared t) := by
  induction l generalizing t with
  | nil => exact .refl
  | cons id l ih => exact .head .released ih

theorem configureBudget_moves (h : configureBudget L currency amount t = .ok t') : Moves t t' := by
  simp only [configureBudget, bind_ok, ensure_ok, pure_ok, Option.isNone_iff_eq_none] at h
  obtain ⟨limit, -, _, fresh, rfl⟩ := h
  exact .single (.configured fresh (Int.natCast_nonneg limit))

theorem reserveAttempt_moves (h : reserveAttempt L request t = .ok t') : Moves t t' := by
  simp only [reserveAttempt, bind_ok, need_ok, ensure_ok, pure_ok, Option.isNone_iff_eq_none,
    decide_eq_true_eq] at h
  obtain ⟨_, -, fence, -, _, -, expires, -, amount, -, limit, hlimit, _, hroom, _, fresh, rfl⟩ := h
  rw [held_eq] at hroom
  exact .single (.reserved fresh rfl rfl (Int.natCast_nonneg amount) hlimit hroom)

theorem orReject_ok {check : Except Reason α} : orReject check = .ok a ↔ check = .ok a := by
  cases check <;> simp [orReject]

theorem charge_nonneg (h : charge L value = .ok amount) : 0 ≤ amount := by
  unfold charge at h
  split at h
  case h_1 units _ => cases h; exact Int.natCast_nonneg units
  · cases h

theorem upperBound_nonneg (h : upperBound L price request = .ok upper) : 0 ≤ upper := by
  simp only [upperBound, bind_ok, ensure_ok, pure_ok, Bool.and_eq_true, decide_eq_true_eq] at h
  obtain ⟨_, ⟨⟨htokens, -⟩, -⟩, fixed, hfixed, input, hinput, output, houtput, _, -, rfl⟩ := h
  have hfixed := charge_nonneg hfixed
  have hinput := Int.mul_nonneg (charge_nonneg hinput)
    (Int.natCast_nonneg request.prompt.utf8ByteSize)
  have houtput := Int.mul_nonneg (charge_nonneg houtput) htokens.le
  omega

structure Prepares (submission : Submission) (t : Tables) (attempt : AttemptRow) (call : CallRow) :
    Prop where
  stored : t.attempts.get? submission.attempt_id = some attempt
  active : attempt.state = .active
  attempt_id : call.attempt_id = submission.attempt_id
  state : call.state = .prepared
  actual : call.actual_units = none
  nonneg : 0 ≤ call.upper_units
  upper : call.upper_units ≤ attempt.future

theorem plan_prepares
    (h : plan L submission authorized priced t = .ok (.prepare attempt fence call port valid_until)) :
    Prepares submission t attempt call := by
  simp only [plan, bind_ok, orReject_ok] at h
  obtain ⟨⟨found, fence'⟩, hauthorized, port', -, ⟨request, logical⟩, -, h⟩ := h
  split at h
  · simp only [bind_ok, pure_ok] at h
    obtain ⟨_, -, h⟩ := h
    cases h
  · simp only [bind_ok, pure_ok, orReject_ok, ensure_ok, need_ok, decide_eq_true_eq] at h
    obtain ⟨until', -, upper, hupper, _, hroom, limit, -, _, -, h⟩ := h
    cases h
    simp only [authorize, bind_ok, need_ok, ensure_ok, pair_ok,
      AttemptRow.authorizes, Bool.and_eq_true, decide_eq_true_eq] at hauthorized
    obtain ⟨_, hstored, _, -, _, ⟨⟨-, hactive⟩, -⟩, rfl, -⟩ := hauthorized
    exact ⟨hstored, hactive, rfl, rfl, rfl, upperBound_nonneg hupper, hroom⟩

theorem insertReceipt_moves (h : insertReceipt receipt_id row t = .ok t') : Moves t t' := by
  simp only [insertReceipt, bind_ok, ensure_ok, pure_ok] at h
  obtain ⟨_, -, rfl⟩ := h
  exact note_moves

theorem submit_moves (h : submit L submission receipt_id call_id authorized priced t =
    .ok (answer, t')) : Moves t t' := by
  unfold submit at h
  split at h
  · cases h
  · simp only [bind_ok, pair_ok] at h
    obtain ⟨_, hinserted, -, rfl⟩ := h
    exact insertReceipt_moves hinserted
  · simp only [bind_ok, pair_ok] at h
    obtain ⟨_, hinserted, -, rfl⟩ := h
    exact insertReceipt_moves hinserted
  case h_4 attempt fence call port valid_until hplan =>
    simp only [bind_ok, ensure_ok, pair_ok, Option.isNone_iff_eq_none] at h
    obtain ⟨_, fresh, _, hinserted, -, rfl⟩ := h
    obtain ⟨stored, active, hid, state, actual, nonneg, upper⟩ := plan_prepares hplan
    rw [← hid] at stored
    have hprepared := Move.prepared stored active fresh state actual nonneg upper
    rw [hid] at hprepared
    exact .head hprepared (insertReceipt_moves hinserted)

theorem withdraw_moves : Moves t (withdraw sending reason t).2 := .head .released note_moves

theorem intendSend_moves (h : intendSend sending authorized priced t = .ok (answer, t')) : Moves t t' := by
  simp only [intendSend, bind_ok, need_ok] at h
  obtain ⟨current, -, h⟩ := h
  split at h
  · cases h; exact withdraw_moves
  · simp only [bind_ok, need_ok] at h
    obtain ⟨call, hcall, h⟩ := h
    split at h
    · cases h; exact .refl
    case isFalse hprepared =>
      have hprepared : call.state = .prepared := not_not.mp hprepared
      split at h
      · cases h; exact withdraw_moves
      · cases h
        exact .single (.sent hcall ⟨rfl, rfl, rfl, by simp [hprepared], by simp [hprepared]⟩)

theorem lose_same : CallRow.Same call call.lose := by
  unfold CallRow.lose
  split
  case isTrue hpending => exact ⟨rfl, rfl, rfl, by simp [hpending], by simp [hpending]⟩
  · exact ⟨rfl, rfl, rfl, Iff.rfl, Iff.rfl⟩

theorem Same.refl : CallRow.Same call call := ⟨rfl, rfl, rfl, Iff.rfl, Iff.rfl⟩

theorem loseResponse_moves (h : loseResponse sending t = .ok (receipt, t')) : Moves t t' := by
  have hlost : Moves t { t with calls := t.calls.modify sending.call_id CallRow.lose } := by
    refine .single (.marked fun id call => ?_)
    split
    · exact lose_same
    · exact Same.refl
  simp only [loseResponse, bind_ok, need_ok] at h
  obtain ⟨call, -, h⟩ := h
  split at h
  · cases h; exact hlost.trans note_moves
  · cases h; exact hlost

theorem recover_moves : Moves t (recover t) := by
  have hlost : Moves (releaseAll t fun _ => true) { releaseAll t (fun _ => true) with
      calls := (releaseAll t fun _ => true).calls.mapValues fun _ => CallRow.lose } :=
    .single (.marked fun _ _ => lose_same)
  exact (foldl_moves.trans hlost).trans note_moves

theorem finishAttempt_moves : Moves t (finishAttempt id t) := by
  refine .head ?_ foldl_moves
  refine .closed (fun _ => ⟨rfl, rfl⟩) fun _ => ⟨?_, rfl⟩
  simp

theorem revokeAttempt_moves : Moves t (revokeAttempt id t) := by
  refine .head ?_ foldl_moves
  refine .closed (fun _ => ⟨rfl, rfl⟩) fun _ => ⟨?_, rfl⟩
  simp

theorem settle_cases (h : settle L settlement t = .ok t') : t' = t ∨ ∃ confirmed,
    confirm L settlement t = .ok (some confirmed) ∧
      Moves (book settlement.call_id confirmed t) t' := by
  simp only [settle, bind_ok] at h
  obtain ⟨found, hfound, h⟩ := h
  cases found with
  | none => cases h; exact .inl rfl
  | some confirmed =>
    refine .inr ⟨confirmed, hfound, ?_⟩
    dsimp only at h
    split at h
    · cases h; exact note_moves
    · cases h; exact .refl

-- Steps and runs

def Action.settlement? (s : State) : Action → Option Settlement
  | .settle settlement => some settlement
  | .advance index w =>
    match s.sendings[index]? with
    | some (sending, .sent) => w.response.map (·.settlement sending.call_id)
    | _ => none
  | _ => none

def Action.confirmed? (L : Library) (s : State) (a : Action) : Option Confirmed :=
  (a.settlement? s).bind fun settlement => (confirm L settlement s.tables).toOption.join

/-- A total that raises an earlier one exceeds what its attempt has left by no more
than the grant leaves free. -/
def Covered (L : Library) (scope : Scope) (s : State) (a : Action) : Prop := ∀ confirmed ∈ a.confirmed? L s,
    scope.covers confirmed.call.attempt_id confirmed.attempt.currency →
    confirmed.call.actual_units.isSome →
    ∀ limit ∈ scope.allowance s.tables, s.tables.heldBy scope + confirmed.uncovered ≤ limit

instance (s : State) (a : Action) : Decidable (Covered L scope s a) := by
  unfold Covered
  infer_instance

theorem commit_moves (h : ∀ t', result = .ok t' → Moves t t') : Moves t (commit t result) := by
  cases result with
  | ok t' => exact h t' rfl
  | error => exact .refl

theorem advance_cases : Moves t (advance L w t sending stage).1 ∨
    ∃ usage confirmed, stage = .sent ∧ w.response = some usage ∧
      confirm L (usage.settlement sending.call_id) t = .ok (some confirmed) ∧
      Moves (book sending.call_id confirmed t) (advance L w t sending stage).1 := by
  unfold advance
  cases stage with
  | prepared =>
    refine .inl ?_
    dsimp only
    split
    case h_1 hintended => exact intendSend_moves hintended
    case h_2 hintended => exact intendSend_moves hintended
    · exact .refl
  | sent =>
    dsimp only
    split
    · exact .inl .refl
    case h_2 usage hresponse =>
      split
      case h_1 hsettled =>
        rcases settle_cases hsettled with rfl | ⟨confirmed, hconfirmed, hmoves⟩
        · exact .inl .refl
        · exact .inr ⟨usage, confirmed, rfl, hresponse, hconfirmed, hmoves⟩
      · exact .inl .refl
  | unsettled =>
    refine .inl ?_
    dsimp only
    split
    case h_1 hlost => exact loseResponse_moves hlost
    · exact .refl
  | answered receipt | stopped => exact .inl .refl

theorem step_cases (s : State) (a : Action) : Moves s.tables (s.step L a).tables ∨
    ∃ call_id confirmed, a.confirmed? L s = some confirmed ∧ confirmed.Of call_id s.tables ∧
      Moves (book call_id confirmed s.tables) (s.step L a).tables := by
  cases a with
  | configureBudget currency amount =>
    exact .inl (commit_moves fun _ => configureBudget_moves)
  | reserveAttempt request => exact .inl (commit_moves fun _ => reserveAttempt_moves)
  | submit submission receipt_id call_id authorized priced =>
    refine .inl ?_
    simp only [State.step, State.submit]
    split
    case h_1 hsubmitted => exact submit_moves hsubmitted
    case h_2 hsubmitted => exact submit_moves hsubmitted
    · exact .refl
  | advance index w =>
    simp only [State.step, State.advance, Action.confirmed?, Action.settlement?]
    cases hsending : s.sendings[index]? with
    | none => exact .inl .refl
    | some found =>
      obtain ⟨sending, stage⟩ := found
      have hcases : Moves s.tables (advance L w s.tables sending stage).1 ∨ _ := advance_cases
      rcases hcases with hmoves | ⟨usage, confirmed, rfl, hresponse, hconfirmed, hmoves⟩
      · exact .inl hmoves
      · refine .inr ⟨sending.call_id, confirmed, ?_, confirm_of hconfirmed, hmoves⟩
        simp [hresponse, hconfirmed, Except.toOption]
  | settle settlement =>
    simp only [State.step]
    cases hsettled : settle L settlement s.tables with
    | error => exact .inl .refl
    | ok t' =>
      rcases settle_cases hsettled with rfl | ⟨confirmed, hconfirmed, hmoves⟩
      · exact .inl .refl
      · refine .inr ⟨settlement.call_id, confirmed, ?_, confirm_of hconfirmed, hmoves⟩
        simp [Action.confirmed?, Action.settlement?, hconfirmed, Except.toOption]
  | recover => exact .inl recover_moves
  | finishAttempt attempt_id => exact .inl finishAttempt_moves
  | revokeAttempt attempt_id => exact .inl revokeAttempt_moves
  | crash index => exact .inl .refl

theorem sound_step (hs : Sound s.tables) (a : Action) : Sound (s.step L a).tables := by
  rcases step_cases s a with hmoves | ⟨call_id, confirmed, -, hc, hmoves⟩
  · exact hmoves.sound hs
  · exact hmoves.sound (hs.booked hc)

theorem sound_empty : Sound State.empty.tables := by
  constructor <;> rintro _ _ ⟨⟩

theorem Sound.of_reach (h : (system L).Reach ok s) : Sound s.tables :=
  h.invariant (I := fun s => Sound s.tables) (fun _ hi => hi ▸ sound_empty)
    fun _ a hs _ => sound_step hs a

theorem uncovered_first {confirmed : Confirmed} (hs : Sound t) (hc : confirmed.Of call_id t)
    (hfirst : confirmed.call.actual_units = none)
    (hbound : confirmed.actual ≤ confirmed.call.upper_units) : confirmed.uncovered = 0 := by
  have hfuture := (hs.futures _ _ hc.attempt).1
  simp only [Confirmed.uncovered, hfirst, Option.getD_none]
  omega

theorem within_step (hs : Sound s.tables) (hw : Bounded s.tables scope → Within s.tables scope)
    (hcovered : Covered L scope s a) (hb : Bounded (s.step L a).tables scope) :
    Within (s.step L a).tables scope := by
  rcases step_cases s a with hmoves | ⟨call_id, confirmed, hconfirmed, hc, hmoves⟩
  · exact hmoves.within hs (hw (hmoves.bounded hs hb))
  · have hbooked := hmoves.bounded (hs.booked hc) hb
    have hbefore := (lasts_book hc).bounded hs hbooked
    refine hmoves.within (hs.booked hc) (.booked hs hc (hw hbefore) hbooked fun hcovers => ?_)
    cases hfirst : confirmed.call.actual_units with
    | some previous => exact hcovered confirmed hconfirmed hcovers (by simp [hfirst])
    | none =>
      intro limit hlimit
      rw [uncovered_first hs hc hfirst (booked_bound hc hbooked hcovers), add_zero]
      exact hw hbefore limit hlimit

theorem within_of_reach (h : (system L).Reach (Covered L scope) s)
    (hb : Bounded s.tables scope) : Within s.tables scope := by
  have hkept : Sound s.tables ∧ (Bounded s.tables scope → Within s.tables scope) := by
    refine h.invariant (I := fun s => Sound s.tables ∧
      (Bounded s.tables scope → Within s.tables scope)) ?_ ?_
    · rintro i rfl
      refine ⟨sound_empty, fun _ limit hlimit => ?_⟩
      cases scope <;> cases hlimit
    · exact fun s a hs hcovered => ⟨sound_step hs.1 a, within_step hs.1 hs.2 hcovered⟩
  exact hkept.2 hb

theorem heldBy_attempt (hs : Sound t) (stored : t.attempts.get? id = some attempt) :
    t.heldBy (.attempt id) = attempt.future + callsHeld t id := by
  have hfuture : t.attempts.total (futureOf (.attempt id)) = attempt.future := by
    have hsingle := Dict.total_single (d := t.attempts) (k := id) (f := AttemptRow.future)
    rw [stored] at hsingle
    refine (Dict.total_congr fun other row _ => ?_).trans hsingle
    simp [futureOf, Scope.covers]
  rw [heldBy_eq, hfuture, callsHeld]
  refine congrArg _ (Dict.total_congr fun call_id call hcall => ?_)
  obtain ⟨owner, howner⟩ := Option.isSome_iff_exists.mp (hs.owned call_id call hcall)
  rw [heldOf, counts_of_owner howner]
  simp [Scope.covers]

structure Conserved (L : Library) (s : State) : Prop where
  nonneg : ∀ id attempt, s.tables.attempts.get? id = some attempt → 0 ≤ attempt.future
  /-- An attempt and its calls stay within its reservation, as long as settled totals
  stay within their bounds and a total that grew again was covered. -/
  reservation : ∀ id attempt, s.tables.attempts.get? id = some attempt →
    (system L).Reach (Covered L (.attempt id)) s →
    (∀ call_id call, s.tables.calls.get? call_id = some call → call.attempt_id = id →
      ∀ actual ∈ call.actual_units, actual ≤ call.upper_units) →
    attempt.future + callsHeld s.tables id ≤ attempt.reserved
  limit : ∀ currency limit, s.tables.budgets.get? currency = some limit →
    (system L).Reach (Covered L (.currency currency)) s →
    (∀ call_id call attempt, s.tables.calls.get? call_id = some call →
      s.tables.attempts.get? call.attempt_id = some attempt → attempt.currency = currency →
      ∀ actual ∈ call.actual_units, actual ≤ call.upper_units) →
    held s.tables currency ≤ limit

theorem cash_conserved (h : (system L).Reach System.free s) : Conserved L s := by
  have hs := Sound.of_reach h
  refine ⟨fun id attempt hattempt => (hs.futures id attempt hattempt).1,
    fun id attempt hattempt hcovered hbounds => ?_, fun currency limit hlimit hcovered hbounds => ?_⟩
  · rw [← heldBy_attempt hs hattempt]
    refine within_of_reach hcovered (fun call_id call hcall hcounts => ?_) attempt.reserved ?_
    · obtain ⟨owner, howner⟩ := Option.isSome_iff_exists.mp (hs.owned call_id call hcall)
      rw [counts_of_owner howner] at hcounts
      exact hbounds call_id call hcall (of_decide_eq_true hcounts)
    · simp [Scope.allowance, hattempt]
  · rw [held_eq]
    refine within_of_reach hcovered (fun call_id call hcall hcounts => ?_) limit hlimit
    obtain ⟨owner, howner⟩ := Option.isSome_iff_exists.mp (hs.owned call_id call hcall)
    rw [counts_of_owner howner] at hcounts
    exact hbounds call_id call owner hcall howner (of_decide_eq_true hcounts)

namespace Sample

/-! One attempt reserves the whole budget; a token costs one unit of the currency. -/

def local_url : Url := ⟨"http", some "127.0.0.1", some 80, "/infer", "", "", none, none⟩

def library : Library where
  decimal text := ([("0", 0), ("1", 1), ("4", 4), ("8", 8), ("10", 10)] : List (String × Rat)).lookup
    text |>.map Decimal.finite
  urlsplit text := if text = "http://127.0.0.1:80/infer" then some local_url else none
  isspace c := c = ' '
  digest request := request.prompt

def profile : Profile where
  id := "fake"
  model := "m"
  endpoint := "http://127.0.0.1:80/infer"
  price := ⟨"r", "USD", .str "0", .str "0", .str "1", true, some (.finite 9)⟩
  logical_id_evidence_ref := none
  billing_path := "local_fake"

def calling (tokens : Int) (receipt_id call_id : String) : Action :=
  .submit ⟨"a", .int 1, .str "", .int tokens, .null⟩ receipt_id call_id 0 0

def settled : List Action := [.configureBudget "USD" (.str "10"),
    .reserveAttempt ⟨"a", profile, .str "10", "b", .int 1, .finite 9⟩,
    calling 10 "r1" "c1", .advance 0 ⟨0, 0, none⟩,
    .advance 0 ⟨0, 0, some ⟨.str "e1", .str "4", .str "USD", .str "p1"⟩⟩]

def raised : Action := .settle ⟨"c1", .str "e2", .str "8", .str "USD", .str "p1"⟩

def after (actions : List Action) : State := (system library).run .empty actions

theorem after_reach (actions : List Action) : (system library).Reach System.free (after actions) :=
  ⟨.empty, rfl, .of_free_run⟩

end Sample

open Sample (library settled raised calling after after_reach)

/-- The total grows while the attempt has enough left, and another call takes the rest. -/
theorem cash_conserved_covered : ∃ s, Conserved library s ∧
    (system library).Reach (Covered library (.currency "USD")) s ∧
    held s.tables "USD" = 10000000 ∧ s.tables.calls.keys.length = 2 := by
  let actions := settled ++ [raised, calling 2 "r2" "c2"]
  obtain ⟨hcovered, hheld⟩ : (system library).Meets
      (Covered library (.currency "USD")) .empty actions ∧
      held (after actions).tables "USD" = 10000000 ∧
      (after actions).tables.calls.keys.length = 2 := by decide +kernel
  exact ⟨after actions, cash_conserved (after_reach _), .of_run rfl hcovered, hheld⟩

/-- The total grows after another call took what was freed. No settled total is above
its call's bound, and more is held than was granted. -/
theorem raised_above_reservation : ∃ s attempt, (system library).Reach System.free s ∧
    s.tables.attempts.get? "a" = some attempt ∧
    (∀ entry ∈ s.tables.calls.entries, ∀ actual ∈ entry.2.actual_units, actual ≤ entry.2.upper_units) ∧
    attempt.reserved < attempt.future + callsHeld s.tables "a" ∧
    s.tables.budgets.get? "USD" = some 10000000 ∧ 10000000 < held s.tables "USD" := by
  let s := after (settled ++ [calling 6 "r2" "c2", raised])
  have hattempt : (s.tables.attempts.get? "a").any (fun attempt =>
      attempt.reserved < attempt.future + callsHeld s.tables "a") = true := by decide +kernel
  obtain ⟨attempt, hget, habove⟩ := (Option.any_eq_true ..).mp hattempt
  obtain ⟨hbounds, hlimit, hheld⟩ : (∀ entry ∈ s.tables.calls.entries,
      ∀ actual ∈ entry.2.actual_units, actual ≤ entry.2.upper_units) ∧
      s.tables.budgets.get? "USD" = some 10000000 ∧ 10000000 < held s.tables "USD" := by
    decide +kernel
  exact ⟨s, attempt, after_reach _, hget, hbounds, of_decide_eq_true habove, hlimit, hheld⟩

end Karajan.Resources
