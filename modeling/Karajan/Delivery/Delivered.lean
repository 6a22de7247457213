import Karajan.Delivery.Completion

/-!
# Delivered means proven

A confirmation asks for the receipt and looks at the remote in the same call
that writes its result. What it was told is kept in a history, so that a
satisfied delivery can be held against it.
-/

namespace Karajan.Delivery

open List Check
variable {L : Library} {st : State} {id : String}

-- What a confirmation is told

inductive Look
  | verified (index : Nat) (receipt : Option VerificationReceipt)
  | observed (index : Nat) (seen : Answer Remote)

def look (st : State) : Action → Option Look
  | .advance index w =>
    match st.advances[index]? with
    | some (_, .confirmVerifying ..) => some (.verified index w.receipt)
    | some (_, .confirmInspecting ..) => some (.observed index w.seen)
    | _ => none
  | _ => none

structure Own (request : Request) (pr : PullRequest) : Prop where
  identity : prIdentity request pr = true
  head : pr.head_sha = request.commit_sha

def Verified (log : List Look) (index : Nat) (c : Coordinator) (s : Snapshot) (reason : Option Reason) : Prop :=
  ∃ receipt, Look.verified index receipt ∈ log ∧ reason = verificationReason c s receipt

def Stage.Told (log : List Look) (index : Nat) (c : Coordinator) (s : Snapshot) : Stage → Prop
  | .confirmVerifying _ pr => Own s.request pr
  | .confirmInspecting _ pr reason => Own s.request pr ∧ Verified log index c s reason
  | .confirming _ pr reason observation remote_reason =>
    Own s.request pr ∧ Verified log index c s reason ∧
      (remote_reason = none → ∃ seen, Look.observed index (.returns seen) ∈ log ∧
        observation = some seen ∧ remoteReason s.request seen = none)
  | _ => True

variable {stage : Stage} {a : Advance}

theorem Verified.mono (h : Verified log index c s reason) (hl : log ⊆ log') : Verified log' index c s reason := by
  obtain ⟨receipt, hmem, hreason⟩ := h
  exact ⟨receipt, hl hmem, hreason⟩

theorem Stage.Told.mono (h : stage.Told log index c s) (hl : log ⊆ log') : stage.Told log' index c s := by
  cases stage with
  | confirmVerifying operation pr => exact h
  | confirmInspecting operation pr reason => exact ⟨h.1, h.2.mono hl⟩
  | confirming operation pr reason observation remote_reason =>
    refine ⟨h.1, h.2.1.mono hl, fun hnone => ?_⟩
    obtain ⟨seen, hmem, hseen⟩ := h.2.2 hnone
    exact ⟨seen, hl hmem, hseen⟩
  | _ => trivial

theorem confirmFirst_told : (confirmFirst s operation pr).Told log index c s := by
  unfold confirmFirst
  split
  case h_1 own hown =>
    obtain ⟨-, hown⟩ := Option.filter_eq_some_iff.mp hown
    simp only [Bool.and_eq_true, decide_eq_true_eq] at hown
    exact ⟨hown.1, hown.2⟩
  · split <;> trivial

theorem readStage_told : (readStage c s).Told log index c s := by
  unfold readStage
  split
  · split
    · split
      · split <;> trivial
      · trivial
    · trivial
  · trivial

theorem bindingStage_told : (bindingStage s receipt found bound_id).Told log index c s := by
  unfold bindingStage
  split
  · trivial
  · split
    · split
      · split
        · exact confirmFirst_told
        · trivial
      · split <;> trivial
      · trivial
    · trivial

def Stage.heard (index : Nat) (w : World) : Stage → Option Look
  | .confirmVerifying .. => some (.verified index w.receipt)
  | .confirmInspecting .. => some (.observed index w.seen)
  | _ => none

theorem look_eq (hget : st.advances[index]? = some (a, stage)) :
    look st (.advance index w) = stage.heard index w := by
  cases stage <;> simp [look, hget, Stage.heard]

theorem talk_told (w : World) (h : stage.Told log index c s) :
    (talk w c s stage).Told (log ++ (stage.heard index w).toList) index c s := by
  cases stage with
  | verifying | validating receipt | pushing operation | inspecting receipt
  | reconcileInspecting operation | reconcilingPush operation => simp only [talk]; split <;> trivial
  | lookingUp receipt seen =>
    simp only [talk]
    split
    case h_1 => split <;> trivial
    all_goals trivial
  | publishing operation existing_id =>
    simp only [talk]
    split
    case h_1 => exact confirmFirst_told
    all_goals trivial
  | confirmVerifying operation pr => exact ⟨h, w.receipt, by simp [Stage.heard], rfl⟩
  | confirmInspecting operation pr reason =>
    have hmono := h.2.mono (subset_append_left log (Stage.heard index w
      (.confirmInspecting operation pr reason)).toList)
    simp only [talk]
    split
    case h_1 seen hseen =>
      exact ⟨h.1, hmono, fun hnone => ⟨seen, by simp [Stage.heard, hseen], rfl, hnone⟩⟩
    case h_4 => trivial
    all_goals exact ⟨h.1, hmono, fun hnone => by simp at hnone⟩
  | reconcileLookingUp operation seen =>
    simp only [talk]
    split
    case h_1 =>
      split
      case h_2 => exact confirmFirst_told
      all_goals trivial
    all_goals trivial
  | confirming operation pr reason observation remote_reason =>
    exact Stage.Told.mono h (subset_append_left ..)
  | _ => trivial

theorem outcomeStage_told {next : Stage} (h : next.Told log index c s) :
    (outcomeStage result db next).2.Told log index c s := by
  rcases outcomeStage_cases result db next with hnext | hnext <;> rw [hnext]
  · exact h
  · trivial

theorem advanceStage_told (w : World) (h : stage.Told log index c s) :
    (advanceStage w c s db stage).2.Told (log ++ (stage.heard index w).toList) index c s := by
  cases stage with
  | checking receipt =>
    refine outcomeStage_told ?_
    split <;> trivial
  | appendingPush receipt | appendingPr receipt existing_id => exact outcomeStage_told trivial
  | binding receipt found => exact bindingStage_told
  | recordingPush | unknown | recordingReconcile | blocking | confirming => trivial
  | _ => exact talk_told w h

-- What a step writes

theorem advanceStage_calm (w : World) (hsound : Sound db)
    (hstage : ∀ operation pr reason observation remote_reason,
      stage ≠ .confirming operation pr reason observation remote_reason) :
    Calm L db (advanceStage w c s db stage).1 := by
  cases stage with
  | checking receipt => exact outcomeStage_keeps (.refl L _) fun db' outcome hok => checkActivation_calm hsound hok
  | appendingPush receipt => exact outcomeStage_keeps (.refl L _) fun db' outcome hok => appendPush_calm hsound hok
  | appendingPr receipt existing_id =>
    exact outcomeStage_keeps (.refl L _) fun db' outcome hok => appendPr_calm hsound hok
  | recordingPush operation observation => exact commit_keeps (.refl L _) fun db' hok => recordPush_calm hsound hok
  | recordingReconcile operation seen => exact commit_keeps (.refl L _) fun db' hok => reconcilePush_calm hsound hok
  | unknown => exact commit_keeps (.refl L _) fun db' hok => unknown_calm hsound hok
  | blocking reason => exact block_calm hsound
  | confirming operation pr reason observation remote_reason =>
    exact absurd rfl (hstage operation pr reason observation remote_reason)
  | _ => exact .refl L db

/-- The action is the last step of a confirmation of the delivery. -/
def Confirms (st : State) (action : Action) (index : Nat) (pr : PullRequest) (id : String) : Prop :=
  ∃ w a operation reason observation remote_reason s, action = .advance index w ∧
    st.advances[index]? = some (a, .confirming operation pr reason observation remote_reason) ∧
    a.snapshot = some s ∧ s.id = id

structure Proven (L : Library) (st : State) (log : List Look) (index : Nat) (pr : PullRequest)
    (receipt : VerificationReceipt) (seen : Remote) (s : Snapshot) : Prop where
  active : st.db.run_controls.get? s.request.run_id = some .active
  highest : ∀ row ∈ st.db.ofRun s.request.run_id, row.revision ≤ s.request.delivery_revision
  resolved : ∀ row ∈ st.db.ofRun s.request.run_id, row.revision < s.request.delivery_revision →
    row.snapshot.unresolved = false
  verified : Look.verified index (some receipt) ∈ log
  allowed : receipt.receipt_ref = s.request.verification_ref ∧
    receipt.binding_sha256 = L.requestDigest s.request ∧ receipt.decision = .allow ∧
    receipt.provenance = .fixture
  observed : Look.observed index (.returns seen) ∈ log
  head : seen.head_sha = some s.request.commit_sha
  base : seen.base_sha = some s.request.tested_base_sha
  identity : pr.repository_id = s.request.repository_id ∧
    pr.managed_branch = s.request.managed_branch ∧ pr.base_branch = s.request.base_branch ∧
    pr.run_id = s.request.run_id ∧ pr.head_sha = s.request.commit_sha
  ci : s.request.require_ci = true → pr.ci_sha = some s.request.commit_sha ∧ pr.ci_status = .success
  bound : s.pr = some pr

theorem remoteReason_none (h : remoteReason request seen = none) :
    seen.head_sha = some request.commit_sha ∧ seen.base_sha = some request.tested_base_sha := by
  simp only [remoteReason] at h
  split at h
  · cases h
  case isFalse hhead =>
    split at h
    · cases h
    case isFalse hbase => exact ⟨not_not.mp hhead, not_not.mp hbase⟩

theorem verificationReason_none
    (h : verificationReason c s receipt? = none) : ∃ receipt, receipt? = some receipt ∧
      receipt.receipt_ref = s.request.verification_ref ∧ receipt.binding_sha256 = s.binding_sha256 ∧
      receipt.decision = .allow ∧ receipt.provenance = .fixture := by
  simp only [verificationReason] at h
  split at h
  case h_2 => cases h
  case h_1 receipt hok =>
    simp only [verification, bind_ok, need_ok, ensure_ok, pure_ok, Bool.and_eq_true, decide_eq_true_eq] at hok
    obtain ⟨-, -, receipt, hreceipt, -, hallowed, rfl⟩ := hok
    exact ⟨receipt, hreceipt, hallowed.1.1.1, hallowed.1.1.2, hallowed.1.2, hallowed.2⟩

structure TellInv (L : Library) (st : State) (log : List Look) : Prop where
  good : Good L st.db
  advances : ∀ (index : Nat) (a : Advance) (stage : Stage) (s : Snapshot),
    st.advances[index]? = some (a, stage) → a.snapshot = some s →
    s.binding_sha256 = L.requestDigest s.request ∧ stage.Told log index a.coordinator s

theorem confirming_proven (hinv : SendInv st history) (htell : TellInv L st log)
    (hget : st.advances[index]? = some (a, .confirming operation pr reason observation remote_reason))
    (hread : a.snapshot = some s) : Settles L st.db (st.advance index w).db ∧
      ((st.advance index w).db = st.db ∨ ∀ id s', (st.advance index w).db.snapshot? id = some s' →
        s'.requirements_satisfied = true → (id ≠ s.id ∧ st.db.snapshot? id = some s') ∨
          (id = s.id ∧ ∃ receipt seen, Proven L st log index pr receipt seen s')) := by
  rw [State.advance_eq hget hread (by simp)]
  obtain ⟨-, ⟨current, hc, hbefore⟩, -⟩ := (hinv.advances _ (mem_of_getElem? hget)).read s hread
  obtain ⟨hbinding, hown, ⟨receipt?, hverified, hreason⟩, hremote⟩ := htell.advances index a _ s hget hread
  simp only [advanceStage]
  cases hresult : confirmPr s operation.id pr reason observation remote_reason st.db with
  | error fault => exact ⟨.refl L st.db, .inl rfl⟩
  | ok db' =>
    obtain ⟨hsettles, hall⟩ := confirmPr_ok hinv.sound hc hbefore.request hresult
    refine ⟨hsettles, .inr fun id s' hs' hs => ?_⟩
    rcases hall id s' hs' hs with hother | ⟨rfl, rfl, hnone, hconfirmed⟩
    · exact .inl hother
    · obtain ⟨seen, hobserved, -, hsame⟩ := hremote hnone
      obtain ⟨hhead, hbase⟩ := remoteReason_none hsame
      obtain ⟨receipt, rfl, href, hbound, hallow, hfixture⟩ := verificationReason_none hreason.symm
      have hidentity := hown.identity
      simp only [prIdentity, Bool.and_eq_true, decide_eq_true_eq] at hidentity
      have hrequest : s'.request = s.request := hconfirmed.request.trans hbefore.request
      have hrequest' : current.request = s'.request := hconfirmed.request.symm
      refine .inr ⟨rfl, receipt, seen, ?_⟩
      constructor
      case active => exact hrequest' ▸ hconfirmed.current.control
      case highest => exact hrequest' ▸ hconfirmed.current.highest
      case resolved => exact hrequest' ▸ hconfirmed.current.resolved
      case verified => exact hverified
      case allowed => exact hrequest ▸ ⟨href, hbound.trans hbinding, hallow, hfixture⟩
      case observed => exact hobserved
      case head => exact hrequest ▸ hhead
      case base => exact hrequest ▸ hbase
      case identity =>
        exact hrequest ▸ ⟨hidentity.1.1.1, hidentity.1.1.2, hidentity.1.2, hidentity.2, hown.head⟩
      case ci =>
        intro hci
        have hcompleted := hconfirmed.ci
        rw [hrequest'] at hcompleted
        simpa [completed, hci] using hcompleted
      case bound => exact hconfirmed.bound

-- Steps

structure Turns (L : Library) (st : State) (log : List Look) (action : Action) : Prop where
  settles : Settles L st.db (st.step L action).db
  satisfied : ∀ id s', (st.step L action).db.snapshot? id = some s' → s'.requirements_satisfied = true →
    (∃ index pr receipt seen, Confirms st action index pr id ∧
      Proven L st log index pr receipt seen s') ∨
    ((st.step L action).db = st.db ∨ ∀ index pr, ¬ Confirms st action index pr id) ∧
      ∃ s, st.db.snapshot? id = some s ∧ s.requirements_satisfied = true

theorem Turns.calm (h : Calm L st.db (st.step L action).db)
    (hno : ∀ index pr id, ¬ Confirms st action index pr id) : Turns L st log action where
  settles := h.settles
  satisfied id s' hs' hs := .inr ⟨.inr fun index pr => hno index pr id, h.quiet id s' hs' hs⟩

theorem not_confirms (hget : st.advances[index]? = some (a, stage))
    (hstage : ∀ operation pr reason observation remote_reason,
      stage ≠ .confirming operation pr reason observation remote_reason) :
    ∀ index' pr id, ¬ Confirms st (.advance index w) index' pr id := by
  rintro index' pr id ⟨w', a', operation, reason, observation, remote_reason, s, heq, hget', -, -⟩
  cases heq
  rw [hget] at hget'
  cases hget'
  exact hstage _ _ _ _ _ rfl

theorem Confirms.advances (h : Confirms st action index pr id) : ∃ w, action = .advance index w := by
  obtain ⟨w, a, operation, reason, observation, remote_reason, s, heq, -⟩ := h
  exact ⟨w, heq⟩

theorem told_set {l : List (Advance × Stage)} (h : ∀ (index : Nat) (a : Advance) (stage : Stage) (s : Snapshot),
      l[index]? = some (a, stage) → a.snapshot = some s →
      s.binding_sha256 = L.requestDigest s.request ∧ stage.Told log index a.coordinator s)
    (hl : log ⊆ log') (hown : ∀ s, a.snapshot = some s →
      s.binding_sha256 = L.requestDigest s.request ∧ stage.Told log' index a.coordinator s) :
    ∀ (i : Nat) (b : Advance) (stage' : Stage) (s : Snapshot),
      (l.set index (a, stage))[i]? = some (b, stage') → b.snapshot = some s →
      s.binding_sha256 = L.requestDigest s.request ∧ stage'.Told log' i b.coordinator s := by
  intro i b stage' s hget hread
  rw [getElem?_set] at hget
  split at hget
  case isTrue heq =>
    split at hget
    · cases hget
      exact heq ▸ hown s hread
    · cases hget
  · obtain ⟨hbinding, htold⟩ := h i b stage' s hget hread
    exact ⟨hbinding, htold.mono hl⟩

section
variable (hinv : SendInv st history) (htell : TellInv L st log)
include hinv htell

theorem advance_turns (index : Nat) (w : World) : Turns L st log (.advance index w) := by
  cases hget : st.advances[index]? with
  | none =>
    refine .calm ?_ ?_
    · simpa [State.step, State.advance, hget] using Calm.refl L st.db
    · rintro index' pr id ⟨w', a, operation, reason, observation, remote_reason, s, heq, hget', -, -⟩
      cases heq
      simp [hget] at hget'
  | some p =>
    obtain ⟨a, stage⟩ := p
    have hadvance := hinv.advances _ (mem_of_getElem? hget)
    by_cases hreading : stage = .reading
    · subst hreading
      refine .calm ?_ (not_confirms hget (by simp))
      have hsame : (st.step L (.advance index w)).db = st.db := by
        simp only [State.step, State.advance, hget, Delivery.advance]
        split <;> rfl
      exact hsame ▸ .refl L st.db
    · cases hread : a.snapshot with
      | none =>
        cases (hadvance.unread hread).resolve_left hreading
        refine .calm ?_ (not_confirms hget (by simp))
        simpa [State.step, State.advance, hget, Delivery.advance, hread] using Calm.refl L st.db
      | some s =>
        by_cases hconfirming : ∃ operation pr reason observation remote_reason,
            stage = .confirming operation pr reason observation remote_reason
        · obtain ⟨operation, pr, reason, observation, remote_reason, rfl⟩ := hconfirming
          obtain ⟨hsettles, hcases⟩ := confirming_proven (w := w) hinv htell hget hread
          refine ⟨hsettles, fun id s' hs' hs => ?_⟩
          rcases hcases with hsame | hall
          · exact .inr ⟨.inl hsame, s', by rw [← hsame]; exact hs', hs⟩
          · rcases hall id s' hs' hs with ⟨hne, hold⟩ | ⟨rfl, receipt, seen, hproven⟩
            · refine .inr ⟨.inr ?_, s', hold, hs⟩
              rintro index' pr' ⟨w', a', operation', reason', observation', remote_reason', t, heq,
                hget', hread', rfl⟩
              cases heq
              rw [hget] at hget'
              cases hget'
              rw [hread] at hread'
              cases hread'
              exact hne rfl
            · exact .inl ⟨index, pr, receipt, seen, ⟨w, a, operation, reason, observation,
                remote_reason, s, rfl, hget, hread, rfl⟩, hproven⟩
        · have hstage : ∀ operation pr reason observation remote_reason,
              stage ≠ .confirming operation pr reason observation remote_reason := by
            rintro operation pr reason observation remote_reason rfl
            exact hconfirming ⟨operation, pr, reason, observation, remote_reason, rfl⟩
          refine .calm ?_ (not_confirms hget hstage)
          rw [State.step, State.advance_eq hget hread hreading]
          exact advanceStage_calm w hinv.sound hstage

theorem step_turns (action : Action) : Turns L st log action := by
  cases action with
  | reopen =>
    refine .calm (commit_keeps (.refl L _) fun db' hok => openTables_calm hok) ?_
    intro index pr id h
    simpa using h.advances
  | plan mode id request command_key principal =>
    refine .calm (commit_keeps (.refl L _) fun db' hok => ?_) ?_
    · obtain ⟨⟨db'', result⟩, hplan, rfl⟩ := map_ok.mp hok
      exact plan_calm hplan
    · intro index pr id h
      simpa using h.advances
  | setControl run_id state command_key principal =>
    refine .calm (commit_keeps (.refl L _) fun db' hok => ?_) ?_
    · obtain ⟨⟨db'', result⟩, hset, rfl⟩ := map_ok.mp hok
      exact setControl_calm hinv.sound hset
    · intro index pr id h
      simpa using h.advances
  | call coordinator delivery_id principal =>
    refine .calm ?_ ?_
    · simp only [State.step]
      split <;> exact .refl L st.db
    · intro index pr id h
      simpa using h.advances
  | crash index =>
    refine .calm (.refl L st.db) ?_
    intro index pr id h
    simpa using h.advances
  | advance index w => exact advance_turns hinv htell index w

theorem TellInv.advance (index : Nat) (w : World) :
    TellInv L (st.advance index w) (log ++ (look st (.advance index w)).toList) := by
  have hgood : Good L (st.advance index w).db := (advance_turns hinv htell index w).settles.good htell.good
  have hl : log ⊆ log ++ (look st (.advance index w)).toList := subset_append_left ..
  refine ⟨hgood, ?_⟩
  cases hget : st.advances[index]? with
  | none =>
    simp only [State.advance, hget]
    intro i b stage s hb hread
    obtain ⟨hbinding, htold⟩ := htell.advances i b stage s hb hread
    exact ⟨hbinding, htold.mono hl⟩
  | some p =>
    obtain ⟨a, stage⟩ := p
    have hadvance := hinv.advances _ (mem_of_getElem? hget)
    by_cases hreading : stage = .reading
    · subst hreading
      simp only [State.advance, hget, Delivery.advance]
      split
      case h_1 snapshot hfound =>
        refine told_set htell.advances hl fun s hread => ?_
        cases hread
        exact ⟨(htell.good.documents _ _ hfound).binding, readStage_told⟩
      · exact told_set htell.advances hl fun s hread =>
          ⟨(htell.advances index a _ s hget hread).1, trivial⟩
    · cases hread : a.snapshot with
      | none =>
        simp only [State.advance, hget, Delivery.advance, hread]
        exact told_set htell.advances hl fun s hs => by simp [hread] at hs
      | some s =>
        rw [State.advance_eq hget hread hreading, look_eq hget]
        obtain ⟨hbinding, htold⟩ := htell.advances index a stage s hget hread
        refine told_set htell.advances (subset_append_left ..) fun s' hs' => ?_
        cases hread.symm.trans hs'
        exact ⟨hbinding, advanceStage_told w htold⟩

theorem TellInv.step (action : Action) : TellInv L (st.step L action) (log ++ (look st action).toList) := by
  have hgood := (step_turns hinv htell action).settles.good htell.good
  cases action with
  | advance index w => exact htell.advance hinv index w
  | reopen | plan | setControl => exact ⟨hgood, by simpa [State.step, look] using htell.advances⟩
  | call coordinator delivery_id principal =>
    refine ⟨hgood, ?_⟩
    simp only [State.step, look, Option.toList_none, append_nil]
    split
    case isFalse => exact htell.advances
    case isTrue =>
      intro i b stage s hb hread
      rw [getElem?_append] at hb
      split at hb
      case isTrue => exact htell.advances i b stage s hb hread
      case isFalse =>
        obtain ⟨rfl, rfl⟩ : b = ⟨coordinator, delivery_id, none⟩ ∧ stage = .reading := by
          simpa using mem_of_getElem? hb
        cases hread
  | crash index =>
    refine ⟨hgood, ?_⟩
    simp [State.step, look, Option.toList_none]
    cases hget : st.advances[index]? with
    | none =>
      rw [modify_absent hget]
      exact htell.advances
    | some p =>
      rw [modify_ended hget]
      exact told_set htell.advances (List.Subset.refl log) fun s hread =>
        ⟨(htell.advances index p.1 p.2 s hget hread).1, trivial⟩

end

-- Runs

theorem tellInv_empty : TellInv L .empty [] where
  good := ⟨fun id s h => by simp [State.empty, Db.empty, Db.snapshot?] at h,
    fun r r' t t' h => by simp [State.empty, Db.empty] at h,
    fun r r' pr h => by simp [State.empty, Db.empty] at h⟩
  advances := by simp [State.empty]

def Reached (L : Library) (p : State × List Look) : Prop := (∃ history, SendInv p.1 history) ∧ TellInv L p.1 p.2

theorem Reached.step (h : Reached L p) (action : Action) :
    Reached L (((system L).traced look).step p action) := by
  obtain ⟨⟨history, hinv⟩, htell⟩ := h
  exact ⟨⟨_, (step_inv hinv action).1⟩, htell.step hinv action⟩

theorem reached (h : ((system L).traced look).Reach System.free p) : Reached L p := by
  refine h.invariant ?_ fun p action hp _ => hp.step action
  rintro ⟨i, log⟩ ⟨rfl, rfl⟩
  exact ⟨⟨[], sendInv_empty⟩, tellInv_empty⟩

theorem path_settles (h : Reached L p)
    (hp : ((system L).traced look).Path System.free p p') : Settles L p.1.db p'.1.db := by
  have hkeeps := hp.keeps (I := fun q => Reached L q ∧ Settles L p.1.db q.1.db)
    (fun q action hq _ => ⟨hq.1.step action, ?_⟩) ⟨h, .refl L p.1.db⟩
  · exact hkeeps.2
  · obtain ⟨⟨⟨history, hinv⟩, htell⟩, hsettles⟩ := hq
    exact hsettles.trans (step_turns hinv htell action).settles

/-- A delivery is only satisfied by a confirmation that was told all it needs, and of a run that
is active; a run keeps its target, its pull request and its end. -/
theorem delivered_proven (h : ((system L).traced look).Reach System.free (st, log)) :
    (∀ action id s', (st.step L action).db.snapshot? id = some s' → s'.requirements_satisfied = true →
      (∃ index pr receipt seen, Confirms st action index pr id ∧
        Proven L st log index pr receipt seen s') ∨
      ((st.step L action).db = st.db ∨ ∀ index pr, ¬ Confirms st action index pr id) ∧
        ∃ s, st.db.snapshot? id = some s ∧ s.requirements_satisfied = true) ∧
    (∀ id s, st.db.snapshot? id = some s →
      st.db.run_controls.get? s.request.run_id ≠ some .active → s.requirements_satisfied = false) ∧
    (∀ run_id state command_key principal db' result,
      setControl L run_id state command_key principal st.db = .ok (db', result) →
      db'.run_controls.get? run_id = some state ∨
        db' = st.db ∧ ∃ command, st.db.commands.get? (principal, command_key) = some command ∧
          command.digest = L.controlDigest run_id state) ∧
    (∀ st' log', ((system L).traced look).Path System.free (st, log) (st', log') →
      (∀ run_id target, st.db.run_targets.get? run_id = some target →
        st'.db.run_targets.get? run_id = some target) ∧
      (∀ run_id pr, st.db.run_prs.get? run_id = some pr → st'.db.run_prs.get? run_id = some pr) ∧
      ∀ run_id state, state.Terminal → st.db.run_controls.get? run_id = some state →
        st'.db.run_controls.get? run_id = some state) ∧
    Good L st.db := by
  obtain ⟨⟨history, hinv⟩, htell⟩ := reached h
  refine ⟨?_, ?_, ?_, ?_, htell.good⟩
  · exact fun action => (step_turns hinv htell action).satisfied
  · intro id s hs hcontrol
    by_contra hsatisfied
    exact hcontrol ((htell.good.documents id s hs).control (by simpa using hsatisfied))
  · intro run_id state command_key principal db' result hset
    rcases setControl_ok hset with ⟨rfl, hcommand⟩ | ⟨current, -, -, hcontrols, -⟩
    · exact .inr ⟨rfl, hcommand⟩
    · exact .inl (by simp [hcontrols])
  · intro st' log' hp
    have hsettles := path_settles (reached h) hp
    exact ⟨fun run_id target => grows_get hsettles.targets, fun run_id pr => grows_get hsettles.prs,
      hsettles.terminal⟩

namespace Sample

def told (actions : List Action) : State × List Look :=
  ((system library).traced look).run (State.empty, []) actions

theorem told_reach (actions : List Action) :
    ((system library).traced look).Reach System.free ((told actions).1, (told actions).2) :=
  ⟨(State.empty, []), ⟨rfl, rfl⟩, .of_free_run⟩

end Sample

open Sample (library told delivered world)

/-- The last step of an advance satisfies the delivery it published. -/
theorem delivered_proven_sample : ∃ index pr receipt seen s, s.id = "d1" ∧ s.requirements_satisfied = true ∧
    Proven library (told (delivered.take 20)).1 (told (delivered.take 20)).2 index pr receipt seen s := by
  have hruns : (((told (delivered.take 20)).1.db.snapshot? "d1").map
        (·.requirements_satisfied)) = some false ∧
      ((((told (delivered.take 20)).1.step library
        (.advance 1 (world "o2"))).db.snapshot? "d1").map
        fun s => (s.id, s.requirements_satisfied)) = some ("d1", true) := by decide +kernel
  obtain ⟨before, hbefore, hunsatisfied⟩ := Option.map_eq_some_iff.mp hruns.1
  obtain ⟨s, hs, heq⟩ := Option.map_eq_some_iff.mp hruns.2
  obtain ⟨hid, hsatisfied⟩ := Prod.mk.inj heq
  obtain ⟨hproven, -⟩ := delivered_proven (Sample.told_reach (delivered.take 20))
  rcases hproven _ "d1" s hs hsatisfied with ⟨index, pr, receipt, seen, -, h⟩ | ⟨-, s', hs', hsatisfied'⟩
  · exact ⟨index, pr, receipt, seen, s, hid, hsatisfied, h⟩
  · cases hbefore.symm.trans hs'
    simp [hunsatisfied] at hsatisfied'

end Karajan.Delivery
