import Karajan.Reviewing.Kept

/-!
# Runs of the reviewer ledger

There is one intent for an operation and for a command, under columns that it
binds, and what is recorded of it stays. Its effect is allowed once at most, and
not after a cancellation. Its phase says what was recorded, as long as no launch
is merged into a row whose effect was claimed since the launch's snapshot.
-/

namespace Karajan.Reviewing

open List Dict Check
variable {host host' : Host}

-- The host

structure HostSound (host : Host) : Prop where
  own : ∀ k row, host.executions.get? k = some row → row.attempt_id = row.manifest.id
  one : ∀ k k' row row', host.executions.get? k = some row → host.executions.get? k' = some row' →
    row.attempt_id = row'.attempt_id → k = k'

theorem attempt_ok {row : HostRow} (h : host.attempt? attempt_id = some (k, row)) :
    host.executions.get? k = some row ∧ row.attempt_id = attempt_id :=
  ⟨get?_eq_some.mpr (mem_of_find?_eq_some h), by simpa using find?_some h⟩

theorem attempt_none (h : host.attempt? attempt_id = none) {row : HostRow}
    (hrow : host.executions.get? k = some row) : row.attempt_id ≠ attempt_id := by
  have hnot := find?_eq_none.mp h (k, row) (get?_eq_some.mp hrow)
  simpa using hnot

theorem HostSound.put (h : HostSound host) (hnone : host.attempt? manifest.id = none) :
    HostSound (host.put k manifest spec) := by
  have hcases : ∀ k' row', (host.put k manifest spec).executions.get? k' = some row' →
      k' = k ∧ row' = ⟨manifest.id, manifest, spec, ⟨false, false, false, none⟩⟩ ∨
        host.executions.get? k' = some row' := by
    intro k' row' hrow'
    by_cases hk : k = k'
    · subst hk
      simp only [Host.put, get?_put_self, Option.some.injEq] at hrow'
      exact .inl ⟨rfl, hrow'.symm⟩
    · simp only [Host.put, get?_put_of_ne hk] at hrow'
      exact .inr hrow'
  constructor
  case own =>
    intro k' row' hrow'
    rcases hcases k' row' hrow' with ⟨-, rfl⟩ | hold
    · rfl
    · exact h.own k' row' hold
  case one =>
    intro k₁ k₂ row₁ row₂ hrow₁ hrow₂ hsame
    rcases hcases k₁ row₁ hrow₁ with ⟨rfl, rfl⟩ | hold₁
    · rcases hcases k₂ row₂ hrow₂ with ⟨rfl, rfl⟩ | hold₂
      · rfl
      · exact absurd hsame.symm (attempt_none hnone hold₂)
    · rcases hcases k₂ row₂ hrow₂ with ⟨rfl, rfl⟩ | hold₂
      · exact absurd hsame (attempt_none hnone hold₁)
      · exact h.one k₁ k₂ row₁ row₂ hold₁ hold₂ hsame

theorem Host.prepare_ok (h : HostSound host)
    (hprepare : host.prepare manifest start_key spec boundary = .ok (host', prepared_id)) :
    HostSound host' ∧ prepared_id = start_key := by
  simp only [Host.prepare, bind_ok] at hprepare
  obtain ⟨_, _, hprepare⟩ := hprepare
  split at hprepare
  case h_1 old hold =>
    simp only [bind_ok, ensure_ok, need_ok, pure_ok, Bool.and_eq_true, decide_eq_true_eq,
      Prod.mk.injEq] at hprepare
    obtain ⟨_, ⟨hmanifest, -⟩, ⟨found, row⟩, hfound, rfl, rfl⟩ := hprepare
    obtain ⟨hrow, hattempt⟩ := attempt_ok hfound
    refine ⟨h, h.one _ _ row old hrow hold ?_⟩
    rw [hattempt, h.own _ old hold, hmanifest]
  case h_2 hnew =>
    simp only [bind_ok, ensure_ok, need_ok, pair_ok, Option.isNone_iff_eq_none] at hprepare
    obtain ⟨_, _, _, hnone, ⟨found, row⟩, hfound, rfl, rfl⟩ := hprepare
    have hput : HostSound (host.put start_key manifest spec) := h.put hnone
    obtain ⟨hrow, hattempt⟩ := attempt_ok hfound
    exact ⟨hput, hput.one _ _ row _ hrow get?_put_self hattempt⟩

theorem Host.initializeControlOnce_ok
    (h : host.initializeControlOnce attempt_id prepared_id fence authorization_ref boundary =
      .ok (host', enabled)) : host'.executions = host.executions := by
  simp only [Host.initializeControlOnce, bind_ok] at h
  obtain ⟨_, _, _, _, _, _, h⟩ := h
  split at h
  · simp only [bind_ok, pair_ok] at h
    obtain ⟨_, _, _, _, rfl, -⟩ := h
    rfl
  · simp only [bind_ok, pair_ok] at h
    obtain ⟨_, _, rfl, -⟩ := h
    rfl

theorem HostSound.of_executions (h : HostSound host) (hsame : host'.executions = host.executions) :
    HostSound host' := by
  constructor
  · rw [hsame]
    exact h.own
  · rw [hsame]
    exact h.one

theorem HostSound.change (h : HostSound host) (change : HostChange) : HostSound (host.change change) := by
  cases change with
  | prepared start_key manifest spec =>
    unfold Host.change
    dsimp only
    split
    · exact h
    case isFalse hnew =>
      simp only [Bool.or_eq_true, not_or, Bool.not_eq_true, Option.isSome_eq_false_iff,
        Option.isNone_iff_eq_none] at hnew
      exact h.put hnew.2
  | status start_key status =>
    have hback : ∀ k row, (host.change (.status start_key status)).executions.get? k = some row →
        ∃ row₀, host.executions.get? k = some row₀ ∧ row.attempt_id = row₀.attempt_id ∧
          row.manifest = row₀.manifest := by
      intro k row hrow
      simp only [Host.change, get?_modify] at hrow
      split at hrow
      · obtain ⟨row₀, hrow₀, rfl⟩ := Option.map_eq_some_iff.mp hrow
        exact ⟨row₀, hrow₀, rfl, rfl⟩
      · exact ⟨row, hrow, rfl, rfl⟩
    constructor
    case own =>
      intro k row hrow
      obtain ⟨row₀, hrow₀, hattempt, hmanifest⟩ := hback k row hrow
      rw [hattempt, hmanifest]
      exact h.own k row₀ hrow₀
    case one =>
      intro k k' row row' hrow hrow' hsame
      obtain ⟨row₀, hrow₀, hattempt, -⟩ := hback k row hrow
      obtain ⟨row₀', hrow₀', hattempt', -⟩ := hback k' row' hrow'
      exact h.one k k' row₀ row₀' hrow₀ hrow₀' (by rw [← hattempt, ← hattempt', hsame])
  | control => exact h.of_executions rfl

-- One step

def Intent.Own (v : Intent) : Prop := v.start_key = startKey v.reviewer_operation_id

def Call.Ok : Call → Prop
  | .freezing value => value.Own
  | .hosted value _ prepared_id | .controlled value _ prepared_id =>
    value.Own ∧ prepared_id = value.start_key
  | .preparing .. | .cancelling _ | .cancelled _ | .waiting _ | .claiming .. => True

structure Kept (lib : Library) (s : State) : Prop where
  ledger : LedgerSound lib s.ledger
  prepared : ∀ row ∈ s.ledger, row.intent.Prepared
  host : HostSound s.host
  calls : ∀ c ∈ s.calls, c.Ok

/-- How a step goes on: the ledger moves, the operations cancelled stay so. -/
structure Goes (lib : Library) (ok : Intent → Launch → Prop) (s s' : State) : Prop where
  ledger : Moves lib ok s.ledger s'.ledger
  host : HostSound s'.host
  cancelled : ∀ op ∈ s.cancelled, op ∈ s'.cancelled
  calls : ∀ c ∈ s'.calls, c ∈ s.calls ∨ c.Ok

theorem Goes.self (hs : Kept lib s) : Goes lib ok s s := ⟨.same, hs.host, fun _ h => h, fun _ h => .inl h⟩

theorem Goes.calling (h : Goes lib ok s t) (hc : c.Ok) : Goes lib ok s (t.calling c) :=
  { h with
    calls := fun c' hc' => by
      rcases List.mem_cons.mp hc' with rfl | hc'
      · exact .inr hc
      · exact h.calls c' hc' }

theorem Goes.after {next : α → State} (hs : Goes lib ok s t)
    (h : ∀ x, r = .ok x → Goes lib ok s (next x)) : Goes lib ok s (t.after r next) := by
  cases r with
  | error e => exact hs
  | ok x => exact h x rfl

theorem Goes.resumed {r : Except LedgerError α} {next : State → α → State} (hs : Kept lib s)
    (h : c ∈ s.calls → c.Ok → Goes lib ok s (s.done c) → ∀ x, r = .ok x → Goes lib ok s (next (s.done c) x)) :
    Goes lib ok s (s.resumed c r next) := by
  unfold State.resumed
  split
  case isFalse => exact .self hs
  case isTrue hc =>
    have hdone : Goes lib ok s (s.done c) := ⟨.same, hs.host, fun _ h => h, fun _ h => .inl (mem_of_mem_erase h)⟩
    exact hdone.after fun x hx => h hc (hs.calls c hc) hdone x hx

theorem Kept.own (hs : Kept lib s) (h : load lib s.ledger ask = .ok (some v)) : v.Own := by
  obtain ⟨row, hrow, rfl, -⟩ := load_ok h
  exact (hs.ledger.rows row hrow).start

theorem prepareInsert_moves (h : prepareInsert lib l cancelled ask command_key w execution_id =
    .ok (l', v)) : Moves lib ok l l' := by
  simp only [prepareInsert, bind_ok] at h
  obtain ⟨facts, _, _, _, _, _, _, _, _, _, _, _, h⟩ := h
  split at h
  · obtain ⟨_, _, h⟩ := bind_ok.mp h
    cases h
    exact .same
  case isFalse hnew =>
    cases h
    exact .added ask command_key facts w.source execution_id (by simpa using hnew)

theorem cancelSave_moves (h : cancelSave lib l ask = .ok (l', answer)) : Moves lib ok l l' := by
  simp only [cancelSave, bind_ok] at h
  obtain ⟨found, hload, h⟩ := h
  cases found with
  | none =>
    cases h
    exact .same
  | some v =>
    cases h
    obtain ⟨row, hrow, rfl, -⟩ := load_ok hload
    exact .saved row hrow _ .cancelled

theorem freezeSave_moves (hl : LedgerSound lib l) (hown : value.Own) (hprepared : prepared_id = value.start_key)
    (hok : ∀ row ∈ l, row.execution_id = value.execution_id → ok row.intent launch)
    (h : freezeSave lib l value launch prepared_id = .ok (l', v)) : Moves lib ok l l' := by
  simp only [freezeSave, bind_ok, need_ok, ensure_ok, decide_eq_true_eq, pair_ok] at h
  obtain ⟨_, hload, current, rfl, _, hid, rfl, -⟩ := h
  obtain ⟨row, hrow, rfl, hask⟩ := load_ok hload
  have hsound := hl.rows row hrow
  have hoperation : row.intent.reviewer_operation_id = value.reviewer_operation_id :=
    congrArg (·.reviewer_operation_id) hask
  have hkey : prepared_id = row.intent.start_key := by
    rw [hprepared, hown, ← hoperation]
    exact hsound.start.symm
  subst hkey
  exact .saved row hrow _ (.frozen launch (hok row hrow (hsound.id.symm.trans hid)))

section
variable (h : claimSave lib l host cancelled value runner w process = .ok (l', v, allowed))
include h

theorem claimSave_ok : (value.run_id, value.reviewer_operation_id) ∉ cancelled ∧ ∃ row ∈ l,
      row.intent.execution_id = value.execution_id ∧ row.intent.ask = value.ask ∧
      row.intent.cancel_requested = false ∧
      (row.intent.effect_claim.isSome = true ∧ l' = l ∧ v = row.intent ∧ allowed = false ∨
        row.intent.effect_claim = none ∧ allowed = true ∧ ∃ body : IntentBody, body = { row.intent with
            effect_claim := some ⟨row.intent.intent_digest, runner⟩, phase := .observerClaimed } ∧
          l' = save lib l body ∧ v = Intent.sealed lib body) := by
  simp only [claimSave, bind_ok, need_ok, ensure_ok, decide_eq_true_eq] at h
  obtain ⟨_, hguard, launch, _, process', _, _, _, _, hload, current, rfl, _, hid, _, hcancel, h⟩ := h
  obtain ⟨row, hrow, rfl, hask⟩ := load_ok hload
  have hnot : (value.run_id, value.reviewer_operation_id) ∉ cancelled := by
    simp only [currentGuard, bind_ok, effectGuard, ensure_ok] at hguard
    obtain ⟨_, _, _, _, _, _, _, hguard, _⟩ := hguard
    simpa [Intent.ask] using hguard
  refine ⟨hnot, row, hrow, hid, hask, by simpa using hcancel, ?_⟩
  split at h
  case isTrue hclaimed =>
    cases h
    exact .inl ⟨hclaimed, rfl, rfl, rfl⟩
  case isFalse hnone =>
    cases h
    exact .inr ⟨by simpa using hnone, rfl, _, rfl, rfl, rfl⟩

theorem claimSave_moves : Moves lib ok l l' := by
  obtain ⟨-, row, hrow, -, -, hcancel, ⟨-, rfl, -⟩ | ⟨hnone, -, body, rfl, rfl, -⟩⟩ := claimSave_ok h
  · exact .same
  · exact .saved row hrow _ (.claimed runner hcancel hnone)

end

def Merges (ok : Intent → Launch → Prop) (s : State) (a : Action) : Prop :=
  ∀ value launch prepared_id, a = .saveFreeze value launch prepared_id →
    .controlled value launch prepared_id ∈ s.calls →
    ∀ row ∈ s.ledger, row.execution_id = value.execution_id → ok row.intent launch

theorem step_goes (hs : Kept lib s) (hok : Merges ok s a) : Goes lib ok s (s.step lib a) := by
  have hself : Goes lib ok s s := .self hs
  cases a with
  | prepare ask command_key =>
    refine hself.after fun found _ => ?_
    cases found with
    | none => exact hself.calling trivial
    | some v => exact hself
  | insert ask command_key w execution_id =>
    unfold State.step
    refine .resumed hs fun _ _ hdone x hx => ?_
    exact ⟨prepareInsert_moves hx, hdone.host, hdone.cancelled, hdone.calls⟩
  | freeze ask =>
    refine hself.after fun value hvalue => hself.calling ?_
    simp only [freezeRead, bind_ok, need_ok, pure_ok] at hvalue
    obtain ⟨_, hload, found, rfl, _, _, rfl⟩ := hvalue
    exact hs.own hload
  | prepareHost value w compiler =>
    unfold State.step
    refine .resumed hs fun _ hown hdone x hx => ?_
    obtain ⟨host', launch, prepared_id⟩ := x
    simp only [State.hostPrepared, bind_ok, pure_ok, Prod.exists, Prod.mk.injEq] at hx
    obtain ⟨_, _, _, _, _, _, hprepare, rfl, rfl, rfl⟩ := hx
    obtain ⟨hhost, hkey⟩ := Host.prepare_ok hs.host hprepare
    exact Goes.calling ⟨hdone.ledger, hhost, hdone.cancelled, hdone.calls⟩ ⟨hown, hkey⟩
  | initializeControl value launch prepared_id boundary =>
    unfold State.step
    refine .resumed hs fun _ hcall hdone x hx => ?_
    obtain ⟨host', enabled⟩ := x
    have hhost := hs.host.of_executions (Host.initializeControlOnce_ok hx)
    have hgoes : Goes lib ok s { s.done (.hosted value launch prepared_id) with host := host' } :=
      ⟨hdone.ledger, hhost, hdone.cancelled, hdone.calls⟩
    cases enabled with
    | true => exact hgoes.calling hcall
    | false => exact hgoes
  | saveFreeze value launch prepared_id =>
    unfold State.step
    refine .resumed hs fun hcall hown hdone x hx => ?_
    have hmoves := freezeSave_moves hs.ledger hown.1 hown.2 (hok value launch prepared_id rfl hcall) hx
    exact ⟨hmoves, hdone.host, hdone.cancelled, hdone.calls⟩
  | cancel ask => exact hself.after fun _ _ => hself.calling trivial
  | cancelAdmission ask asked answered =>
    unfold State.step
    refine .resumed hs fun _ _ hdone _ _ => ?_
    have hasked : Goes lib ok s (if (asked || answered) = true then
        (s.done (.cancelling ask)).cancelAdmission ask.run_id ask.reviewer_operation_id
        else s.done (.cancelling ask)) := by
      split
      · exact ⟨hdone.ledger, hdone.host, fun op hop => mem_cons_of_mem _ (hdone.cancelled op hop), hdone.calls⟩
      · exact hdone
    cases answered with
    | true => exact hasked.calling trivial
    | false => exact hasked
  | saveCancel ask =>
    unfold State.step
    refine .resumed hs fun _ _ hdone x hx => ?_
    exact ⟨cancelSave_moves hx, hdone.host, hdone.cancelled, hdone.calls⟩
  | inspect => exact hself
  | claim ask =>
    refine hself.after fun x _ => ?_
    obtain ⟨value, claimed⟩ := x
    cases claimed with
    | true => exact hself
    | false => exact hself.calling trivial
  | register value runner =>
    unfold State.step
    exact .resumed hs fun _ _ hdone _ _ => hdone.calling trivial
  | saveClaim value runner w process =>
    unfold State.step
    refine .resumed hs fun _ _ hdone x hx => ?_
    exact ⟨claimSave_moves hx, hdone.host, hdone.cancelled, hdone.calls⟩
  | cancelOther run_id reviewer_operation_id =>
    exact ⟨.same, hs.host, fun op hop => mem_cons_of_mem _ hop, fun _ h => .inl h⟩
  | host change => exact ⟨.same, hs.host.change change, fun _ h => h, fun _ h => .inl h⟩
  | drop call => exact ⟨.same, hs.host, fun _ h => h, fun _ h => .inl (mem_of_mem_erase h)⟩

theorem Goes.kept (h : Goes lib ok s t) (hs : Kept lib s) : Kept lib t where
  ledger := h.ledger.sound hs.ledger
  prepared := h.ledger.prepared hs.ledger hs.prepared
  host := h.host
  calls c hc := (h.calls c hc).elim (hs.calls c) id

-- Runs

theorem initial_kept (h : initial s) : Kept lib s := by
  obtain ⟨hledger, hhost, -, hcalls⟩ := h
  refine ⟨⟨?_, ?_⟩, ?_, ⟨?_, ?_⟩, ?_⟩
  · simp [hledger]
  · simp [hledger]
  · simp [hledger]
  · simp [hhost]
  · simp [hhost]
  · simp [hcalls]

theorem merges_free : Merges (fun _ _ => True) s a := fun _ _ _ _ _ _ _ _ => trivial

open Karajan.System (free)

theorem kept (h : (system lib).Reach free s) : Kept lib s :=
  h.invariant (fun _ => initial_kept) fun _ _ hs _ => (step_goes hs merges_free).kept hs

structure Succeeds (s t : State) : Prop where
  rows : ∀ row ∈ s.ledger, ∃ row' ∈ t.ledger, row.Continues row'
  cancelled : ∀ op ∈ s.cancelled, op ∈ t.cancelled

theorem Goes.succeeds (h : Goes lib ok s t) (hs : Kept lib s) : Succeeds s t where
  rows _ hrow := h.ledger.continues hs.ledger hs.prepared hrow
  cancelled := h.cancelled

theorem Succeeds.refl (s : State) : Succeeds s s :=
  ⟨fun row hrow => ⟨row, hrow, ⟨rfl, rfl, rfl, rfl, rfl⟩, .refl _⟩, fun _ h => h⟩

theorem Succeeds.trans (h : Succeeds s s') (h' : Succeeds s' t) : Succeeds s t where
  rows row hrow := by
    obtain ⟨row₁, hrow₁, ⟨hid, hrun, hoperation, hprincipal, hkey⟩, hintent⟩ := h.rows row hrow
    obtain ⟨row₂, hrow₂, ⟨hid', hrun', hoperation', hprincipal', hkey'⟩, hintent'⟩ := h'.rows row₁ hrow₁
    exact ⟨row₂, hrow₂, ⟨hid'.trans hid, hrun'.trans hrun, hoperation'.trans hoperation,
      hprincipal'.trans hprincipal, hkey'.trans hkey⟩, hintent.trans hintent'⟩
  cancelled op hop := h'.cancelled op (h.cancelled op hop)

theorem succeeds (hs : Kept lib s) (h : (system lib).Path free s t) : Succeeds s t ∧ Kept lib t := by
  induction h with
  | refl => exact ⟨.refl s, hs⟩
  | @step _ a _ _ ih =>
    have hgoes := step_goes (a := a) ih.2 merges_free
    exact ⟨ih.1.trans (hgoes.succeeds ih.2), hgoes.kept ih.2⟩

structure Accounted (lib : Library) (s : State) : Prop where
  operations : ∀ row ∈ s.ledger, ∀ row' ∈ s.ledger, row.run_id = row'.run_id →
    row.reviewer_operation_id = row'.reviewer_operation_id → row = row'
  commands : ∀ row ∈ s.ledger, ∀ row' ∈ s.ledger, row.principal = row'.principal →
    row.command_key = row'.command_key → row = row'
  bound : ∀ row ∈ s.ledger, decodeIntentRow lib row none = .ok row.intent
  prepared : ∀ row ∈ s.ledger, row.intent.Prepared
  cancelled : ∀ row ∈ s.ledger, row.intent.cancel_requested = true ↔ row.intent.phase = .cancellationPending

theorem Kept.accounted (hs : Kept lib s) : Accounted lib s where
  operations row hrow row' hrow' hrun hoperation :=
    hs.ledger.eq hrow hrow' (by simp [Row.clashes, hrun, hoperation])
  commands row hrow row' hrow' hprincipal hkey :=
    hs.ledger.eq hrow hrow' (by simp [Row.clashes, hprincipal, hkey])
  bound row hrow := decode_of_sound (hs.ledger.rows row hrow)
  prepared := hs.prepared
  cancelled row hrow := (hs.ledger.rows row hrow).cancelled

theorem allowed_claims (hs : Kept lib s) (hcall : .claiming value runner ∈ s.calls)
    (h : s.claimAnswer lib value runner w process = .ok (l, v, true)) :
    ∃ row ∈ (s.step lib (.saveClaim value runner w process)).ledger,
      row.execution_id = v.execution_id ∧ row.intent.effect_claim.isSome = true := by
  have hstep : (s.step lib (.saveClaim value runner w process)).ledger = l := by
    simp [State.step, State.resumed, hcall, h, State.after]
  rw [hstep]
  obtain ⟨-, row, hrow, -, -, -, ⟨-, -, -, hfalse⟩ | ⟨-, -, body, hbody, rfl, rfl⟩⟩ := claimSave_ok h
  · cases hfalse
  · have hid : body.execution_id = row.execution_id := by
      rw [hbody]
      exact (hs.ledger.rows row hrow).id
    refine ⟨row.saved lib body, (save_eq hs.ledger hrow hid _).mpr (.inl rfl), hid.symm, ?_⟩
    show body.effect_claim.isSome = true
    rw [hbody]
    rfl

/-- No launch is merged into a row whose effect was claimed, or that has another launch. -/
def Calm (s : State) (a : Action) : Prop := Merges Mergeable s a

theorem phased (h : (system lib).Reach Calm s) :
    Kept lib s ∧ ∀ row ∈ s.ledger, row.state = row.intent.phaseOf := by
  refine h.invariant (I := fun s => Kept lib s ∧ ∀ row ∈ s.ledger, row.state = row.intent.phaseOf)
    (fun i hi => ⟨initial_kept hi, ?_⟩) fun s a hs ha => ?_
  · rw [hi.1]
    simp
  · have hgoes := step_goes hs.1 ha
    exact ⟨hgoes.kept hs.1, hgoes.ledger.phased hs.1.ledger hs.2⟩

theorem launch_stays (hs : Kept lib s) (h : (system lib).Path Calm s t) (hrow : row ∈ s.ledger) :
    Kept lib t ∧ ∃ row' ∈ t.ledger, row'.execution_id = row.execution_id ∧
      ∀ launch ∈ row.intent.launch, launch ∈ row'.intent.launch := by
  induction h with
  | refl => exact ⟨hs, row, hrow, rfl, fun _ h => h⟩
  | step _ ha ih =>
    obtain ⟨hkept, row₁, hrow₁, hid, hlaunch⟩ := ih
    have hgoes := step_goes hkept ha
    refine ⟨hgoes.kept hkept, ?_⟩
    rcases hgoes.ledger.onward hkept.ledger hrow₁ with hsame | ⟨body, hedit, hsaved⟩
    · exact ⟨row₁, hsame, hid, hlaunch⟩
    · exact ⟨_, hsaved, hid, fun launch h => hedit.launch launch (hlaunch launch h)⟩

/-- In every run of the ledger: every state is accounted for, what was recorded stays, and an
effect is allowed once at most and not after a cancellation. In every run whose merges are
calm, the phase of a row says what was recorded, and its launch stays. -/
theorem reviewer_ledger (lib : Library) : (∀ s, (system lib).Reach free s → Accounted lib s) ∧
    (∀ s t, (system lib).Reach free s → (system lib).Path free s t → Succeeds s t) ∧
    (∀ s value runner w process ledger v, (system lib).Reach free s → .claiming value runner ∈ s.calls →
      s.claimAnswer lib value runner w process = .ok (ledger, v, true) →
      (v.run_id, v.reviewer_operation_id) ∉ s.cancelled ∧
      (∀ row ∈ s.ledger, row.execution_id = v.execution_id → row.intent.cancel_requested = false) ∧
      ∀ t, (system lib).Path free (s.step lib (.saveClaim value runner w process)) t →
        ∀ value' runner' w' process' ledger' v',
          t.claimAnswer lib value' runner' w' process' = .ok (ledger', v', true) →
          v'.execution_id ≠ v.execution_id) ∧
    ∀ s, (system lib).Reach Calm s → (∀ row ∈ s.ledger, row.state = row.intent.phaseOf) ∧
      ∀ t, (system lib).Path Calm s t → ∀ row ∈ s.ledger, ∃ row' ∈ t.ledger,
        row'.execution_id = row.execution_id ∧ ∀ launch ∈ row.intent.launch, launch ∈ row'.intent.launch := by
  refine ⟨fun s hs => (kept hs).accounted, fun s t hs hp => (succeeds (kept hs) hp).1,
    fun s value runner w process ledger v hs hcall h => ?_, fun s hs => ?_⟩
  · have hkept := kept hs
    obtain ⟨hnot, row, hrow, hid, hask, hcancel, ⟨-, -, -, hfalse⟩ | ⟨-, -, body, hbody, -, rfl⟩⟩ :=
      claimSave_ok h
    · cases hfalse
    · subst hbody
      have hrun : row.intent.run_id = value.run_id := congrArg (·.run_id) hask
      have hoperation : row.intent.reviewer_operation_id = value.reviewer_operation_id :=
        congrArg (·.reviewer_operation_id) hask
      refine ⟨?_, fun r hr hsame => ?_, fun t hp value' runner' w' process' ledger' v' h' => ?_⟩
      · show (row.intent.run_id, row.intent.reviewer_operation_id) ∉ s.cancelled
        rw [hrun, hoperation]
        exact hnot
      · cases hkept.ledger.eq_of_id hr hrow (hsame.trans (hkept.ledger.rows row hrow).id)
        exact hcancel
      · intro hsame
        obtain ⟨r, hr, hrid, hclaimed⟩ := allowed_claims hkept hcall h
        have hnext := (step_goes (a := .saveClaim value runner w process) hkept merges_free).kept hkept
        obtain ⟨hsucceeds, ht⟩ := succeeds hnext hp
        obtain ⟨r', hr', hkeys, hcontinues⟩ := hsucceeds.rows r hr
        obtain ⟨-, found, hfound, -, -, -, ⟨-, -, -, hfalse⟩ | ⟨hnone, -, body, hbody, -, rfl⟩⟩ :=
          claimSave_ok h'
        · cases hfalse
        · subst hbody
          have hfid : found.execution_id = r'.execution_id := by
            rw [hkeys.1, hrid, ← hsame]
            exact (ht.ledger.rows found hfound).id.symm
          cases ht.ledger.eq_of_id hfound hr' hfid
          obtain ⟨claim, hclaim⟩ := Option.isSome_iff_exists.mp hclaimed
          cases hnone.symm.trans (hcontinues.claim claim hclaim)
  · obtain ⟨hkept, hphased⟩ := phased hs
    exact ⟨hphased, fun t hp row hrow => (launch_stays hkept hp hrow).2⟩

section Sample

def library : Library := ⟨fun _ => ""⟩

def owner : Ask := ⟨"n", "o", "w"⟩

def facts : CompiledFacts :=
  ⟨"k", "j", "t", "x", "y", "m", "s", "z", "b", ⟨"p", 1, "binding"⟩, "candidate", ⟨"i", 1, [], []⟩⟩

def executionSource : ReviewerExecutionSource := ⟨"r", "n"⟩

def guardWorld : GuardWorld := ⟨executionSource, none, .ok facts, .ok facts, .ok ()⟩

def launchSpec : ReviewerLaunchSpec := ⟨⟨["tool"], "/", 1⟩, "".pushn 'a' 64⟩

def sampleRunner : ProcessIdentity := ⟨1, "birth"⟩

def preparedIntent : Intent := newIntent library (newIdentity owner "c" facts executionSource "e")

def launch : Launch := ⟨⟨"", launchSpec.bootstrap_digest, launchSpec.process_spec⟩, ""⟩

def hostKey : String := startKey "o"

def frozenIntent : Intent := Intent.sealed library { preparedIntent with
  launch := some launch, host_prepared_id := some hostKey, phase := .hostPrepared }

def claimedIntent : Intent := Intent.sealed library { frozenIntent with
  effect_claim := some ⟨"", sampleRunner⟩, phase := .observerClaimed }

/-- The transactions of a call of `freeze_launch` on a snapshot. -/
def freezeActions (value : Intent) : List Action := [
  .freeze owner,
  .prepareHost value guardWorld (.ok launchSpec),
  .initializeControl value launch hostKey (.ok ()),
  .saveFreeze value launch hostKey]

def claimAction : Action := .saveClaim frozenIntent sampleRunner guardWorld ⟨some sampleRunner, true⟩

/-- An intent is prepared and launched, and its runner registers. -/
def registerActions : List Action :=
  [.prepare owner "c", .insert owner "c" guardWorld "e"] ++ freezeActions preparedIntent ++
    [.host (.status hostKey ⟨true, true, false, some sampleRunner⟩), .claim owner, .register frozenIntent sampleRunner]

def empty : State := ⟨[], ⟨.empty, .empty⟩, [], []⟩

def registeredState : State := (system library).run empty registerActions

theorem empty_initial : (system library).initial empty := ⟨rfl, rfl, rfl, rfl⟩

theorem registeredState_reach : (system library).Reach free registeredState :=
  ⟨empty, empty_initial, .of_free_run⟩

theorem registeredState_claims : registeredState.ledger.map (·.intent) = [frozenIntent] ∧
    .claiming frozenIntent sampleRunner ∈ registeredState.calls ∧
    ((registeredState.claimAnswer library frozenIntent sampleRunner guardWorld ⟨some sampleRunner, true⟩).toOption.map
      fun answer => answer.2) = some (claimedIntent, true) := by
  decide +kernel

/-- The effect of a registered runner is allowed, and it is not allowed again. -/
theorem reviewer_ledger_sample :
    Accounted library registeredState ∧ registeredState.ledger.map (·.intent) = [frozenIntent] ∧
    ∃ ledger, registeredState.claimAnswer library frozenIntent sampleRunner guardWorld ⟨some sampleRunner, true⟩ =
        .ok (ledger, claimedIntent, true) ∧
      ∀ value' sampleRunner' w' process' ledger' v',
        (registeredState.step library claimAction).claimAnswer library value' sampleRunner' w' process' =
          .ok (ledger', v', true) → v'.execution_id ≠ claimedIntent.execution_id := by
  obtain ⟨haccounted, -, hallowed, -⟩ := reviewer_ledger library
  obtain ⟨hledger, hcall, hanswer⟩ := registeredState_claims
  refine ⟨haccounted _ registeredState_reach, hledger, ?_⟩
  cases h : registeredState.claimAnswer library frozenIntent sampleRunner guardWorld ⟨some sampleRunner, true⟩ with
  | error e => simp [h, Except.toOption] at hanswer
  | ok answer =>
    obtain ⟨ledger, v, allowed⟩ := answer
    simp only [h, Except.toOption, Option.map_some, Option.some.injEq, Prod.mk.injEq] at hanswer
    obtain ⟨rfl, rfl⟩ := hanswer
    refine ⟨ledger, rfl, ?_⟩
    exact (hallowed _ _ _ _ _ ledger _ registeredState_reach hcall h).2.2 _ .refl

/-- The launch is frozen once more, after its effect was claimed. -/
def refrozenState : State := (system library).run registeredState (claimAction :: freezeActions claimedIntent)

/-- A launch that is frozen again takes the phase back behind the claim. -/
theorem phase_regresses : ∃ s, (system library).Reach free s ∧
    ∃ row ∈ s.ledger, row.intent.cancel_requested = false ∧ row.intent.effect_claim.isSome = true ∧
      row.state = .hostPrepared ∧ row.state ≠ row.intent.phaseOf := by
  have hrows : refrozenState.ledger.any (fun row => !row.intent.cancel_requested &&
      row.intent.effect_claim.isSome && row.state = .hostPrepared &&
      decide (row.state ≠ row.intent.phaseOf)) = true := by
    decide +kernel
  obtain ⟨row, hrow, hbehind⟩ := List.any_eq_true.mp hrows
  simp only [Bool.and_eq_true, Bool.not_eq_true', decide_eq_true_eq] at hbehind
  obtain ⟨⟨⟨hcancel, hclaimed⟩, hstate⟩, hphase⟩ := hbehind
  exact ⟨refrozenState, registeredState_reach.path .of_free_run, row, hrow, hcancel, hclaimed, hstate, hphase⟩

end Sample

end Karajan.Reviewing
