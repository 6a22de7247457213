import Karajan.Tasks.Visits

/-!
# What edits do

A controller's edit of an execution advances it, or leaves it as it is. What
concerns a new effect is refused once the operation's cancellation was asked
for; what only records an effect is not.
-/

namespace Karajan.Tasks

open Check
open Capacity (Clocked)
open Visit (Triple)

variable {op op' : Operation}

theorem checkExecution_ok (h : checkExecution lib source op = .ok execution) : op.execution = some execution := by
  simp only [checkExecution, bind_ok, need_ok, pure_ok] at h
  obtain ⟨found, hfound, _, _, _, _, _, _, _, _, rfl⟩ := h
  exact hfound

theorem ensureUncancelled_ok (h : ensureUncancelled op = .ok u) : op.cancel_requested = false := by
  simpa [ensureUncancelled, ensure_ok] using h

theorem effectStartClaim_ok (h : effectStartClaim runner op execution = .ok (op', allowed)) :
    op.cancel_requested = false ∧
      (execution.effect_claim.isSome = true ∧ op' = op ∧ allowed = false ∨
        execution.effect_claim = none ∧ execution.phase = .startUnknown ∧ allowed = true ∧
        op' = { op with
          execution := some { execution with
            effect_claim := some (execution.claimOf runner), phase := .effectClaimed }
          state := .executing }) := by
  simp only [effectStartClaim, bind_ok] at h
  obtain ⟨_, hcancel, h⟩ := h
  refine ⟨ensureUncancelled_ok hcancel, ?_⟩
  split at h
  case isTrue hclaimed =>
    cases h
    exact .inl ⟨hclaimed, rfl, rfl⟩
  case isFalse hnone =>
    simp only [bind_ok, pure_ok, ensure_ok, decide_eq_true_eq, Prod.mk.injEq] at h
    obtain ⟨_, hphase, rfl, rfl⟩ := h
    exact .inr ⟨by simpa using hnone, hphase, rfl, rfl⟩

theorem readCollection_ok (h : readCollection lib digest execution = .ok collection) :
    execution.collection = some collection := by
  simp only [readCollection, bind_ok, need_ok, pure_ok] at h
  obtain ⟨found, hfound, _, _, rfl⟩ := h
  exact hfound

section
variable (he : op.execution = some execution)
include he

theorem edit_turns (h : Advance lib candidates op.cancel_requested execution e') :
    Turns lib kind candidates store op (op.withExecution e') :=
  .single (.edited execution e' op.state op.reason_codes he h (.inl rfl))

theorem freezeLaunch_turns
    (h : freezeLaunch lib compiler op execution = .ok op') : Turns lib kind candidates store op op' := by
  simp only [freezeLaunch, bind_ok] at h
  obtain ⟨_, hcancel, _, _, spec, _, _, _, launch, _, h⟩ := h
  split at h
  case h_1 prior _ =>
    simp only [bind_ok, pure_ok] at h
    obtain ⟨_, _, rfl⟩ := h
    exact .refl
  case h_2 hnone =>
    simp only [bind_ok, pure_ok, ensure_ok, decide_eq_true_eq] at h
    obtain ⟨_, hphase, rfl⟩ := h
    exact edit_turns he (.launched launch (ensureUncancelled_ok hcancel) hnone hphase)

theorem observeExecution_turns (h : observeExecution lib cause host journal op execution = .ok op') :
    Turns lib kind candidates store op op' := by
  simp only [observeExecution, bind_ok] at h
  obtain ⟨launch, _, h⟩ := h
  rcases ite_eq_iff.mp h with ⟨hfailure, hdone⟩ | ⟨-, hdone⟩
  · cases hdone
    simp only [Operation.withExecution, Bool.and_eq_true, Bool.not_eq_true'] at hfailure
    exact .single (.edited execution _ .executionUnknown op.reason_codes he (.observed _)
      (.inr ⟨hfailure.1.2, .inr rfl⟩))
  · cases hdone
    exact edit_turns he (.observed _)

theorem activationRecorded_turns
    (h : activationRecorded found op execution = .ok op') : Turns lib kind candidates store op op' := by
  unfold activationRecorded at h
  split at h
  · cases h; exact .refl
  case h_2 receipt =>
    split at h
    case h_1 prior _ =>
      simp only [bind_ok, pure_ok] at h
      obtain ⟨_, _, rfl⟩ := h
      exact .refl
    case h_2 hnone =>
      dsimp only at h
      split at h
      case isTrue hrevalidated =>
        cases h
        exact edit_turns he (.activated receipt hnone hrevalidated)
      · cases h
        refine .single (.edited execution _ _ _ he (.rejected receipt hnone) ?_)
        cases hcancel : op.cancel_requested with
        | true | false => simp [Operation.withExecution, hcancel]

theorem recordHostPrepared_turns
    (h : recordHostPrepared host op execution = .ok op') : Turns lib kind candidates store op op' := by
  simp only [recordHostPrepared, bind_ok, pure_ok] at h
  obtain ⟨snapshot, _, _, hcancel, _, _, rfl⟩ := h
  exact edit_turns he (.hostPrepared snapshot.prepared_id (ensureUncancelled_ok hcancel))

theorem markStartUnknown_turns
    (h : markStartUnknown op execution = .ok op') : Turns lib kind candidates store op op' := by
  simp only [markStartUnknown, bind_ok] at h
  obtain ⟨_, hcancel, _, _, h⟩ := h
  have hcancel := ensureUncancelled_ok hcancel
  split at h
  case isTrue hphase =>
    cases h
    exact .single (.edited execution _ .executionUnknown op.reason_codes he (.started hcancel hphase)
      (.inr ⟨hcancel, .inr rfl⟩))
  · cases h; exact .refl

theorem hostStarted_turns
    (h : hostStarted host op execution = .ok op') : Turns lib kind candidates store op op' := by
  simp only [hostStarted, bind_ok, pure_ok] at h
  obtain ⟨snapshot, _, _, _, rfl⟩ := h
  exact edit_turns he (.hostSeen snapshot)

theorem effectStartClaim_turns (h : effectStartClaim runner op execution = .ok (op', allowed)) :
    Turns lib kind candidates store op op' := by
  obtain ⟨hcancel, ⟨-, rfl, -⟩ | ⟨hnone, hphase, -, rfl⟩⟩ := effectStartClaim_ok h
  · exact .refl
  · exact .single (.edited execution _ .executing op.reason_codes he
      (.claimed runner hcancel hnone hphase) (.inr ⟨hcancel, .inl rfl⟩))

theorem captureRecorded_turns (h : captureRecorded lib source runner capture op execution = .ok op') :
    Turns lib kind candidates store op op' := by
  simp only [captureRecorded, bind_ok] at h
  obtain ⟨_, _, _, _, h⟩ := h
  split at h
  case h_1 previous _ =>
    simp only [bind_ok, pure_ok] at h
    obtain ⟨_, _, rfl⟩ := h
    exact .refl
  case h_2 hnone =>
    simp only [bind_ok, pure_ok, ensure_ok, decide_eq_true_eq] at h
    obtain ⟨_, _, _, hcancel, _, hphase, rfl⟩ := h
    exact edit_turns he (.captured capture.document (ensureUncancelled_ok hcancel) hnone hphase)

theorem candidateRecorded_turns
    (h : candidateRecorded lib candidates digest candidate_id op execution = .ok op') :
    Turns lib kind candidates store op op' := by
  simp only [candidateRecorded, bind_ok, need_ok, ensure_ok, pure_ok] at h
  obtain ⟨collection, hcollection, _, hlookup, candidate, rfl, _, _, _, hsame, rfl⟩ := h
  exact edit_turns he (.linked collection candidate (readCollection_ok hcollection) hlookup hsame)

end

theorem runEdit_triple (edit : Edit lib) (h : s.Sound) : Triple (runEdit candidates op edit) s
      (fun op' t => Goes [] s t ∧ Turns lib kind candidates t op op') (Goes [] s) := by
  have hstays : Goes [] s s := .refl h
  have hlift : ∀ r : Except TaskError Operation,
      (∀ op', r = .ok op' → Turns lib kind candidates s op op') →
      Triple (Visit.lift r) s (fun op' t => Goes [] s t ∧ Turns lib kind candidates t op op') (Goes [] s) :=
    fun r hr => .lift (fun op' hop' => ⟨hstays, hr op' hop'⟩) hstays
  cases edit with
  | freezeLaunch source compiler =>
    refine hlift _ fun op' hop' => ?_
    obtain ⟨e, he, hop'⟩ := bind_ok.mp hop'
    exact freezeLaunch_turns (checkExecution_ok he) hop'
  | observe failure host journal =>
    refine hlift _ fun op' hop' => ?_
    obtain ⟨e, he, hop'⟩ := bind_ok.mp hop'
    exact observeExecution_turns (checkExecution_ok he) hop'
  | activationRecorded source moment =>
    refine .lift_bind hstays fun e he => ?_
    have he := checkExecution_ok he
    refine (readReceipt_triple h).bind ?_
    rintro found t ⟨ht, -, -⟩
    cases found with
    | none => exact .lift (fun op' hop' => ⟨ht, activationRecorded_turns he hop'⟩) ht
    | some result =>
      refine .lift_bind ht fun receipt _ => ?_
      exact .lift (fun op' hop' => ⟨ht, activationRecorded_turns he hop'⟩) ht
  | hostPrepared source host =>
    refine hlift _ fun op' hop' => ?_
    obtain ⟨e, he, hop'⟩ := bind_ok.mp hop'
    exact recordHostPrepared_turns (checkExecution_ok he) hop'
  | startUnknown source =>
    refine hlift _ fun op' hop' => ?_
    obtain ⟨e, he, hop'⟩ := bind_ok.mp hop'
    exact markStartUnknown_turns (checkExecution_ok he) hop'
  | hostStarted source host =>
    refine hlift _ fun op' hop' => ?_
    obtain ⟨e, he, hop'⟩ := bind_ok.mp hop'
    exact hostStarted_turns (checkExecution_ok he) hop'
  | effectClaim source runner =>
    refine hlift _ fun op' hop' => ?_
    obtain ⟨_, _, hop'⟩ := bind_ok.mp hop'
    obtain ⟨e, he, hop'⟩ := bind_ok.mp hop'
    obtain ⟨⟨op₁, allowed⟩, hclaim, rfl⟩ := map_ok.mp hop'
    exact effectStartClaim_turns (checkExecution_ok he) hclaim
  | capture source runner capture =>
    refine hlift _ fun op' hop' => ?_
    obtain ⟨_, _, hop'⟩ := bind_ok.mp hop'
    obtain ⟨e, he, hop'⟩ := bind_ok.mp hop'
    exact captureRecorded_turns (checkExecution_ok he) hop'
  | candidate digest candidate_id =>
    refine hlift _ fun op' hop' => ?_
    obtain ⟨e, he, hop'⟩ := bind_ok.mp hop'
    exact candidateRecorded_turns (checkExecution_ok he) hop'

-- The intent

theorem makeIntent_ok (h : makeIntent lib source run op task = .ok intent) :
    op.receiptFor intent.admission_id ∧ intent.activation_key = activationKey op.id ∧
      intent.run_id = run.id ∧ intent.operation_id = op.id := by
  simp only [makeIntent, bind_ok, need_ok, pure_ok] at h
  obtain ⟨_, _, _, _, _, _, _, _, _, _, _, _, _, _, _, _, receipt, hreceipt, k, hk, _, _, rfl⟩ := h
  exact ⟨⟨receipt, hreceipt, hk⟩, rfl, rfl, rfl⟩

theorem prepareIntent_ok (h : prepareIntent lib source w operations budgets principal op = .ok (op', ledger)) :
    op.state = .reserved ∧ op.cancel_requested = false ∧ ∃ intent run,
      op.receiptFor intent.admission_id ∧ intent.activation_key = activationKey op.id ∧
      intent.run_id = run.id ∧ intent.operation_id = op.id ∧
      claimProcess operations budgets run op intent.attempt_id .writer w.now = .ok ledger ∧
      op' = { op with state := .executionPending, execution := some (newExecution lib intent) } := by
  simp only [prepareIntent, bind_ok, ensure_ok, pure_ok, Bool.and_eq_true, decide_eq_true_eq,
    Bool.not_eq_true', Prod.exists, Prod.mk.injEq] at h
  obtain ⟨_, ⟨hstate, hcancel⟩, run, _, _, task, _, intent, hintent, ledger', hclaim, rfl, rfl⟩ := h
  obtain ⟨hreceipt, hkey, hrun, hid⟩ := makeIntent_ok hintent
  exact ⟨hstate, hcancel, intent, run, hreceipt, hkey, hrun, hid, hclaim, rfl⟩

end Karajan.Tasks
