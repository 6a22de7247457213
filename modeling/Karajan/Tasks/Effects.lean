import Karajan.Admission.Ledger
import Karajan.Candidates.Captures
import Karajan.Tasks.Protocol

/-!
# One effect of an operation

The execution of an operation is created once, with the one claim on its run's
process budget, and its effect is allowed once. Whatever was recorded of it
stays, the candidate that is linked is the one of its capture, and a cancelled
operation begins nothing.
-/

namespace Karajan.Tasks

open Option List Dict Check
variable {s s' t : State} {id : String}

-- The claim on the budget

/-- The claims for the writer of an operation, in the ledger of a run. -/
def writerClaims (budgets : Admission.Budgets) (run_id operation_id : String) : List Admission.ProcessClaim :=
  (((budgets.bind fun ledger => ledger.get? run_id).map (·.claims)).getD []).filter fun claim =>
    claim.operation_id = operation_id && claim.scope = .writer

def State.intentOf (s : State) (id : String) : Option Intent :=
  ((s.operations.get? id).bind (·.execution)).map (·.intent)

structure ClaimedOnce (budgets : Admission.Budgets) (id : String) (intent? : Option Intent) : Prop where
  none : intent? = none → ∀ run_id, writerClaims budgets run_id id = []
  one : ∀ intent, intent? = some intent →
    (∃ claim, writerClaims budgets intent.run_id id = [claim] ∧ claim.attempt_id = intent.attempt_id) ∧
      ∀ run_id, run_id ≠ intent.run_id → writerClaims budgets run_id id = []

theorem claimProcess_claims (h : claimProcess operations budgets run op attempt_id scope now = .ok ledger) :
    (∃ claim, (budgets = some ledger ∧ ∃ budget, ledger.get? run.id = some budget ∧
        claim ∈ budget.claims) ∧ claim.operation_id = op.id ∧ claim.scope = scope) ∨
      ∃ claim : Admission.ProcessClaim, claim.operation_id = op.id ∧ claim.scope = scope ∧
        claim.attempt_id = attempt_id ∧
        ∀ run_id operation_id, writerClaims (some ledger) run_id operation_id =
          writerClaims budgets run_id operation_id ++
            if run_id = run.id ∧ operation_id = op.id ∧ scope = .writer then [claim] else [] := by
  simp only [claimProcess, bind_ok, pure_ok, Prod.exists] at h
  obtain ⟨_, _, rows', budget, hclaim, rfl⟩ := h
  have hclaim : Admission.claimProcess budgets (operations.values.map Operation.row) run.budgetRun op.row
      attempt_id scope now = .ok (rows', budget) := by
    revert hclaim
    cases Admission.claimProcess budgets (operations.values.map Operation.row) run.budgetRun op.row
      attempt_id scope now <;> simp [Except.mapError]
  obtain ⟨rows, plan, rfl, -, hcases⟩ := Admission.claimProcess_ok hclaim
  rcases hcases with ⟨rfl, hbudget, claim, hmem, hidentity⟩ | ⟨rfl, claim, -, hidentity, hclaimed⟩
  · have hid : claim.operation_id = op.id := congrArg (·.operation_id) hidentity
    have hscope : claim.scope = scope := congrArg (·.scope) hidentity
    exact .inl ⟨claim, ⟨rfl, budget, hbudget, hmem⟩, hid, hscope⟩
  · have hid : claim.operation_id = op.id := congrArg (·.operation_id) hidentity
    have hscope : claim.scope = scope := congrArg (·.scope) hidentity
    have hattempt : claim.attempt_id = attempt_id := congrArg (·.attempt_id) hidentity
    refine .inr ⟨claim, hid, hscope, hattempt, fun run_id operation_id => ?_⟩
    have hrun : run.budgetRun.id = run.id := rfl
    by_cases hsame : run_id = run.id
    · subst hsame
      simp only [writerClaims, bind_some, hrun, get?_put_self, map_some,
        getD_some, hclaimed.claims, filter_append]
      by_cases hown : operation_id = op.id <;> by_cases hwriter : scope = .writer <;>
        simp [hown, hwriter, hid, hscope, eq_comm]
    · simp [writerClaims, hrun, get?_put_of_ne fun heq : run.id = run_id => hsame heq.symm, hsame]

theorem otherClaim_claims (h : s.claimed c = .ok ledger) (run_id : String) :
    writerClaims (some ledger) run_id id = writerClaims s.budgets run_id id := by
  simp only [State.claimed, bind_ok] at h
  obtain ⟨op, -, h⟩ := h
  rcases claimProcess_claims h with ⟨_, ⟨hsame, -⟩, -⟩ | ⟨claim, -, -, -, hclaims⟩
  · rw [hsame]
  · simp [hclaims, c.foreign]

-- The candidate

theorem matching_ok (h : Candidates.matching test l = .ok found) :
    ∀ r, r ∈ found ↔ r ∈ l ∧ test r = .ok true := by
  induction l generalizing found with
  | nil =>
    cases h
    simp
  | cons record rest ih =>
    simp only [Candidates.matching, bind_ok, pure_ok] at h
    obtain ⟨b, hb, more, hmore, rfl⟩ := h
    intro r
    have hrest := ih hmore r
    cases b with
    | true =>
      simp only [if_true, mem_cons, hrest]
      constructor
      · rintro (rfl | ⟨hmem, htest⟩)
        · exact ⟨.inl rfl, hb⟩
        · exact ⟨.inr hmem, htest⟩
      · rintro ⟨rfl | hmem, htest⟩
        · exact .inl rfl
        · exact .inr ⟨hmem, htest⟩
    | false =>
      simp only [Bool.false_eq_true, if_false, mem_cons, hrest]
      constructor
      · rintro ⟨hmem, htest⟩
        exact ⟨.inr hmem, htest⟩
      · rintro ⟨rfl | hmem, htest⟩
        · rw [hb] at htest
          cases htest
        · exact ⟨hmem, htest⟩

/-- The store holds the candidate as one of the request and the files of the capture. -/
def CandidateOf (lib : Library) (candidates : Candidates.Store) (capture : CaptureDocument)
    (candidate : Candidates.Candidate) : Prop :=
  ∃ baseline expected, Candidates.get_baseline lib.candidates candidates capture.freeze_request.baseline_id =
      .ok baseline ∧
    Candidates.expected_files lib.candidates capture.freeze_request capture.projection
      capture.captured_files baseline = .ok expected ∧
    candidate ∈ candidates.series capture.freeze_request.series_id ∧
    Candidates.isCapture lib.candidates candidate capture.freeze_request baseline expected = .ok true

theorem lookup_eq_ok {collection : Collection} (h : collection.lookup lib candidates = .ok answer) :
    ∀ candidate, answer = some candidate ↔ CandidateOf lib candidates collection.capture candidate := by
  have hlookup : Candidates.lookup_projection_capture lib.candidates candidates
      collection.capture.freeze_request collection.capture.projection collection.capture.captured_files =
        .ok answer := by
    revert h
    unfold Collection.lookup
    cases Candidates.lookup_projection_capture lib.candidates candidates
      collection.capture.freeze_request collection.capture.projection
      collection.capture.captured_files <;> simp [Except.mapError]
  simp only [Candidates.lookup_projection_capture, bind_ok] at hlookup
  obtain ⟨_, _, baseline, hbaseline, expected, hexpected, found, hfound, hanswer⟩ := hlookup
  have hmem := matching_ok hfound
  have hlist := Candidates.theOnly_ok hanswer
  intro candidate
  have hsome : answer = some candidate ↔ candidate ∈ found := by
    rw [← hlist]
    simp [mem_toList]
  rw [hsome, hmem]
  constructor
  · rintro ⟨hseries, htest⟩
    exact ⟨baseline, expected, hbaseline, hexpected, hseries, htest⟩
  · rintro ⟨baseline', expected', hbaseline', hexpected', hseries, htest⟩
    cases hbaseline.symm.trans hbaseline'
    cases hexpected.symm.trans hexpected'
    exact ⟨hseries, htest⟩

theorem CandidateOf.grows
    (h : CandidateOf lib candidates capture candidate) (hgrows : candidates.Grows candidates') :
    CandidateOf lib candidates' capture candidate := by
  obtain ⟨baseline, expected, hbaseline, hexpected, hseries, htest⟩ := h
  refine ⟨baseline, expected, hgrows.get_baseline hbaseline, hexpected, ?_, htest⟩
  obtain ⟨hmem, hid⟩ := List.mem_filter.mp hseries
  exact List.mem_filter.mpr ⟨hgrows.candidates.subset hmem, hid⟩

/-- The reference that is linked is the one of a candidate of the capture. -/
def LinkOk (lib : Library) (candidates : Candidates.Store) (op : Operation) : Prop :=
  ∀ e collection linked, op.execution = some e → e.collection = some collection →
    collection.candidate = some linked →
    ∃ candidate, CandidateOf lib candidates collection.capture candidate ∧ linked = reference candidate

theorem Advance.link (h : Advance lib candidates cancelled e e') (hcollection : e'.collection = some collection)
    (hrecorded : collection.candidate = some recorded) :
    (∃ before, e.collection = some before ∧ before.capture = collection.capture ∧
        before.candidate = some recorded) ∨
      ∃ candidate, CandidateOf lib candidates collection.capture candidate ∧
        recorded = reference candidate := by
  cases h with
  | captured capture =>
    cases hcollection
    cases hrecorded
  | linked before candidate hbefore hlookup =>
    cases hcollection
    cases hrecorded
    exact .inr ⟨candidate, (lookup_eq_ok hlookup candidate).mp rfl, rfl⟩
  | _ => exact .inl ⟨collection, hcollection, rfl, hrecorded⟩

theorem Turn.link (h : Turn lib kind candidates store op op') (hop : LinkOk lib candidates op) :
    LinkOk lib candidates op' := by
  cases h with
  | cancelRequested _ hstate =>
    rw [Operation.requestCancel_eq hstate]
    intro e collection linked he hcollection hlinked
    obtain ⟨e₀, he₀, rfl⟩ := map_eq_some_iff.mp he
    exact hop e₀ collection linked he₀ hcollection hlinked
  | executing intent =>
    intro e collection linked he hcollection
    cases he
    cases hcollection
  | edited e e' _ _ he hadvance =>
    intro e₁ collection linked he₁ hcollection hlinked
    cases he₁
    rcases hadvance.link hcollection hlinked with ⟨before, hbefore, hcapture, hsame⟩ | hnow
    · exact hcapture ▸ hop e before linked he hbefore hsame
    · exact hnow
  | _ => exact hop

theorem Turns.link (h : Turns lib kind candidates store op op') (hop : LinkOk lib candidates op) :
    LinkOk lib candidates op' := by
  induction h with
  | refl => exact hop
  | tail _ hturn ih => exact hturn.link ih

-- Runs

theorem Turn.unbegun (hkind : kind ≠ .execute) (h : Turn lib kind candidates store op op')
    (hnone : op.execution = none) : op'.execution = none := by
  cases h with
  | cancelRequested _ hstate =>
    rw [Operation.requestCancel_eq hstate]
    simp [hnone]
  | executing _ hexecute => exact absurd hexecute hkind
  | edited _ _ _ _ he => cases hnone.symm.trans he
  | _ => exact hnone

theorem Turns.unbegun (hkind : kind ≠ .execute) (h : Turns lib kind candidates store op op')
    (hnone : op.execution = none) : op'.execution = none := by
  induction h with
  | refl => exact hnone
  | tail _ hturn ih => exact hturn.unbegun hkind ih

theorem Evolves.intentOf (hkind : kind ≠ .execute) (h : Evolves lib kind s s') (hs : Upright s)
    (id : String) : s'.intentOf id = s.intentOf id := by
  unfold State.intentOf
  cases hop : s.operations.get? id with
  | none =>
    cases hop' : s'.operations.get? id with
    | none => rfl
    | some op' =>
      obtain ⟨⟨_, _, _, _, rfl⟩, -⟩ := h.added id op' hop' hop
      rfl
  | some op =>
    obtain ⟨op', hop', hturns⟩ := h.turned id op hop
    rw [hop', bind_some, bind_some]
    cases he : op.execution with
    | none => rw [Turns.unbegun hkind hturns he]
    | some e =>
      obtain ⟨e', he', hcontinues, -⟩ := Turns.continues hturns (hs.proper id op hop) e he
      rw [he', map_some, map_some, hcontinues.intent]

structure Funded (lib : Library) (s : State) : Prop where
  upright : Upright s
  claims : ∀ id, ClaimedOnce s.budgets id (s.intentOf id)
  links : ∀ id op, s.operations.get? id = some op → LinkOk lib s.candidates.store op

structure Beside (s s' : State) : Prop where
  budgets : s'.budgets = s.budgets
  candidates : s'.candidates = s.candidates

theorem saved_beside (r : Except TaskError Operation × Capacity.Clocked) : Beside s (s.saved r) := by
  rcases r with ⟨e | op, store⟩ <;> exact ⟨rfl, rfl⟩

theorem queued_beside (r : Except TaskError (Operations × Operation) × Capacity.Clocked) :
    Beside s (s.queued key payload r) := by
  rcases r with ⟨e | ⟨operations, op⟩, store⟩ <;> exact ⟨rfl, rfl⟩

theorem intendedActivation_beside
    (r : Except TaskError (Operation × Option ActivationIntent) × Capacity.Clocked) :
    Beside s (s.intendedActivation id r) := by
  rcases r with ⟨e | ⟨op, intent⟩, store⟩ <;> exact ⟨rfl, rfl⟩

theorem answered_beside
    (r : Except TaskError ActivationReceipt × Capacity.Clocked) : Beside s (s.answered id intent r) := by
  rcases r with ⟨e | answer, store⟩ <;> exact ⟨rfl, rfl⟩

theorem orElse_beside (h : ∀ s', r = .ok s' → Beside s s') : Beside s (s.orElse r) := by
  cases r with
  | error e => exact ⟨rfl, rfl⟩
  | ok s' => exact h s' rfl

theorem step_beside (a : Action lib) :
    Beside s (s.step lib a) ∨ (∃ c, a = .claim c) ∨ (∃ action, a = .candidates action) ∨
      a.kind = .execute := by
  cases a with
  | claim c => exact .inr (.inl ⟨c, rfl⟩)
  | candidates action => exact .inr (.inr (.inl ⟨action, rfl⟩))
  | prepareIntent => exact .inr (.inr (.inr rfl))
  | other | leave | drop | lost => exact .inl ⟨rfl, rfl⟩
  | enqueue ask task_id command_key w =>
    refine .inl ?_
    unfold State.step
    split
    · exact ⟨rfl, rfl⟩
    · exact queued_beside _
  | get | advance | prepareWorkspace | edit => exact .inl (saved_beside _)
  | intendActivation => exact .inl (intendedActivation_beside _)
  | sendActivation =>
    refine .inl ?_
    unfold State.step
    split
    · exact { answered_beside _ with }
    · exact ⟨rfl, rfl⟩
  | storeActivation | finishCancel =>
    refine .inl ?_
    unfold State.step
    split
    · exact { saved_beside _ with }
    · exact ⟨rfl, rfl⟩
  | requestCancel ask =>
    refine .inl (orElse_beside fun s' hs' => ?_)
    obtain ⟨op, -, rfl⟩ := map_ok.mp hs'
    exact ⟨rfl, rfl⟩
  | enter =>
    refine .inl (orElse_beside fun s' hs' => ?_)
    obtain ⟨held, -, rfl⟩ := map_ok.mp hs'
    exact ⟨rfl, rfl⟩
  | activateExecution =>
    refine .inl ?_
    unfold State.step
    split <;> exact ⟨rfl, rfl⟩

theorem step_claims (a : Action lib) (hkind : a.kind ≠ .execute) (run_id : String) :
    writerClaims (s.step lib a).budgets run_id id = writerClaims s.budgets run_id id := by
  rcases step_beside (s := s) a with hsame | ⟨c, rfl⟩ | ⟨action, rfl⟩ | hexecute
  · rw [hsame.budgets]
  · show writerClaims (s.orElse _).budgets run_id id = _
    cases hclaimed : s.claimed c with
    | error e => rfl
    | ok ledger => exact otherClaim_claims hclaimed run_id
  · rfl
  · exact absurd hexecute hkind

theorem step_grows (a : Action lib) : s.candidates.store.Grows (s.step lib a).candidates.store := by
  rcases step_beside (s := s) a with hsame | ⟨c, rfl⟩ | ⟨action, rfl⟩ | hexecute
  · rw [hsame.candidates]
    exact .refl _
  · show s.candidates.store.Grows (s.orElse _).candidates.store
    cases s.claimed c <;> exact .refl _
  · exact (Candidates.step_moves s.candidates action (Candidates.hosts_any action)).grows
  · cases a with
    | prepareIntent ask command_key source w =>
      show s.candidates.store.Grows (s.orElse _).candidates.store
      cases hprepared : s.prepared lib ask command_key source w with
      | error e => exact .refl _
      | ok s' =>
        obtain ⟨op, op', commands, budgets, -, rfl, -⟩ := State.prepared_ok hprepared
        exact .refl _
    | _ => cases hexecute

theorem ClaimedOnce.of_same (h : ClaimedOnce budgets id intent?)
    (hsame : ∀ run_id, writerClaims budgets' run_id id = writerClaims budgets run_id id) :
    ClaimedOnce budgets' id intent? where
  none hnone run_id := (hsame run_id).trans (h.none hnone run_id)
  one intent hintent := by
    obtain ⟨⟨claim, hclaim, hattempt⟩, hrest⟩ := h.one intent hintent
    exact ⟨⟨claim, (hsame _).trans hclaim, hattempt⟩, fun run_id hne => (hsame _).trans (hrest run_id hne)⟩

theorem prepared_claims (hs : Kept s) (hclaims : ∀ id, ClaimedOnce s.budgets id (s.intentOf id))
    (h : s.prepared lib ask command_key source w = .ok s') :
    ∀ id, ClaimedOnce s'.budgets id (s'.intentOf id) := by
  obtain ⟨op, op', commands, budgets, hop, rfl, hcases⟩ := State.prepared_ok h
  obtain ⟨-, hget⟩ := opened_own hs op hop
  rcases hcases with ⟨-, rfl, rfl⟩ | ⟨hexecution, ledger, rfl, hprepare⟩
  · intro id
    have hsame : ({ s with operations := s.operations.put op'.id op', commands } : State).intentOf id =
        s.intentOf id := by
      by_cases hsame : op'.id = id
      · subst hsame
        simp [State.intentOf, hget]
      · simp [State.intentOf, get?_put_of_ne hsame]
    exact hsame ▸ hclaims id
  · obtain ⟨-, -, intent, run, -, -, hrun, hid, hclaim, rfl⟩ := prepareIntent_ok hprepare
    have hbefore : s.intentOf op.id = none := by
      simp [State.intentOf, hget, hexecution]
    have hnew := (hclaims op.id).none hbefore
    rcases claimProcess_claims hclaim with ⟨claim, ⟨hledger, budget, hbudget, hmem⟩, hown, hscope⟩ |
      ⟨claim, hown, hscope, hattempt, hadded⟩
    · -- A claim that was there would be one of a writer before its intent.
      have hfound : claim ∈ writerClaims s.budgets run.id op.id := by
        simp [writerClaims, hledger, hbudget, hmem, hown, hscope]
      rw [hnew] at hfound
      cases hfound
    · intro id
      by_cases hsame : id = op.id
      · subst hsame
        have hintent : ({ s with
            operations := s.operations.put op.id { op with
              state := .executionPending, execution := some (newExecution lib intent) }
            budgets := some ledger, commands } : State).intentOf op.id = some intent := by
          simp [State.intentOf, newExecution]
        rw [hintent]
        refine ⟨fun hnone => absurd hnone (by simp), fun intent' heq => ?_⟩
        cases heq
        refine ⟨⟨claim, ?_, hattempt⟩, fun run_id hne => ?_⟩
        · simp [hadded, hnew, hrun]
        · rw [hrun] at hne
          simp [hadded, hnew, hne]
      · have hother : ({ s with
            operations := s.operations.put op.id { op with
              state := .executionPending, execution := some (newExecution lib intent) }
            budgets := some ledger, commands } : State).intentOf id = s.intentOf id := by
          simp [State.intentOf, get?_put_of_ne fun heq : op.id = id => hsame heq.symm]
        refine hother ▸ (hclaims id).of_same fun run_id => ?_
        simp [hadded, hsame]

theorem step_funded (hs : Funded lib s) (a : Action lib) (ha : Drawn s a) : Funded lib (s.step lib a) := by
  have hevolves := step_evolves hs.upright.kept a ha
  refine ⟨hevolves.upright hs.upright, ?_, fun id op' hop' => ?_⟩
  · by_cases hkind : a.kind = .execute
    · cases a with
      | prepareIntent ask command_key source w =>
        show ∀ id, ClaimedOnce (s.orElse _).budgets id ((s.orElse _).intentOf id)
        cases hprepared : s.prepared lib ask command_key source w with
        | error e => exact hs.claims
        | ok s' => exact prepared_claims hs.upright.kept hs.claims hprepared
      | _ => cases hkind
    · intro id
      rw [hevolves.intentOf hkind hs.upright id]
      exact (hs.claims id).of_same (step_claims a hkind)
  · have hlinks : ∀ op, LinkOk lib s.candidates.store op → LinkOk lib (s.step lib a).candidates.store op := by
      intro op hop e collection recorded he hcollection hrecorded
      obtain ⟨candidate, hcandidate, hsame⟩ := hop e collection recorded he hcollection hrecorded
      exact ⟨candidate, hcandidate.grows (step_grows a), hsame⟩
    cases hop : s.operations.get? id with
    | none =>
      obtain ⟨⟨_, _, _, _, rfl⟩, -⟩ := hevolves.added id op' hop' hop
      intro e collection recorded he
      cases he
    | some op =>
      obtain ⟨op'', hop'', hturns⟩ := hevolves.turned id op hop
      cases hop'.symm.trans hop''
      exact hlinks op' (Turns.link hturns (hs.links id op hop))

theorem initial_funded (h : initial s) : Funded lib s := by
  refine ⟨initial_upright h, fun id => ?_, fun id op hop => ?_⟩
  · have hintent : s.intentOf id = none := by simp [State.intentOf, h.1]
    refine hintent ▸ ⟨fun _ run_id => ?_, fun intent hsome => by cases hsome⟩
    rcases h.2.2.1 with hnone | hempty
    · simp [writerClaims, hnone]
    · simp [writerClaims, hempty]
  · rw [h.1] at hop
    cases hop

theorem funded (h : (system lib).Reach Drawn s) : Funded lib s :=
  h.invariant (fun _ => initial_funded) fun _ a hs ha => step_funded hs a ha

-- The protocol

structure Effected (lib : Library) (s : State) : Prop where
  claimed : ∀ id, ClaimedOnce s.budgets id (s.intentOf id)
  proper : ∀ id op, s.operations.get? id = some op → op.Proper
  linked : ∀ id op, s.operations.get? id = some op → LinkOk lib s.candidates.store op
  found : ∀ id op e collection recorded answer, s.operations.get? id = some op →
    op.execution = some e → e.collection = some collection → collection.candidate = some recorded →
    collection.lookup lib s.candidates.store = .ok answer → answer.map reference = some recorded
  guarded : ∀ held, s.held = some held → ∃ op, s.operations.get? held.operation_id = some op ∧
    op.execution = some held.execution ∧ op.cancel_requested = false

theorem Funded.effected (h : Funded lib s) : Effected lib s where
  claimed := h.claims
  proper := h.upright.proper
  linked := h.links
  found id op e collection recorded answer hop he hcollection hrecorded hlookup := by
    obtain ⟨candidate, hcandidate, rfl⟩ := h.links id op hop e collection recorded he hcollection hrecorded
    rw [(lookup_eq_ok hlookup candidate).mpr hcandidate]
    rfl
  guarded := h.upright.kept.held

theorem entered_cancelled {guard : Guard}
    (hop : s.operations.get? id = some op) (hcancel : op.cancel_requested = true)
    (hask : ask.operation_id = id) : s.entered lib ask source w guard ≠ .ok held := by
  intro h
  obtain ⟨op', hopened, -, hnot, -⟩ := State.entered_ok h
  have hget := (State.opened_ok hopened).2
  rw [hask, hop] at hget
  cases hget
  cases hcancel.symm.trans hnot

theorem effectAnswer_ok (h : s.effectAnswer lib ask source runner = .ok (op, allowed)) :
    ∃ before e, s.opened lib ask = .ok before ∧ checkRunner runner = .ok () ∧
      checkExecution lib (some source) before = .ok e ∧
      effectStartClaim runner before e = .ok (op, allowed) := by
  simp only [State.effectAnswer, bind_ok] at h
  obtain ⟨before, hopened, ⟨⟩, hrunner, e, he, hclaim⟩ := h
  exact ⟨before, e, hopened, hrunner, he, hclaim⟩

theorem allowed_claims (hs : Kept s) (h : s.effectAnswer lib ask source runner = .ok (op, true)) :
    ∃ op' e, (s.step lib (.edit ask (.effectClaim source runner))).operations.get? ask.operation_id =
      some op' ∧ op'.execution = some e ∧ e.effect_claim.isSome = true := by
  obtain ⟨before, e, hopened, hrunner, he, hclaim⟩ := effectAnswer_ok h
  have hget := (State.opened_ok hopened).2
  have hid := hs.keyed _ _ hget
  obtain ⟨-, ⟨-, -, hfalse⟩ | ⟨-, -, -, hop⟩⟩ := effectStartClaim_ok hclaim
  · cases hfalse
  · refine ⟨op, _, ?_, congrArg (·.execution) hop, rfl⟩
    show (s.saved ((Visit.lift (s.opened lib ask) >>= fun op =>
      runEdit s.candidates.store op (.effectClaim source runner)) s.store)).operations.get? _ = _
    rw [hopened]
    show (s.saved ((do
      checkRunner runner
      Prod.fst <$> effectStartClaim runner before (← checkExecution lib (some source) before)),
      s.store)).operations.get? _ = _
    rw [hrunner, he]
    show (s.saved (Prod.fst <$> effectStartClaim runner before e, s.store)).operations.get? _ = _
    have hown : op.id = ask.operation_id := by rw [hop, ← hid]
    rw [hclaim, ← hown]
    exact get?_put_self

theorem claimed_refused (hop : s.operations.get? id = some op)
    (he : op.execution = some e) (hclaimed : e.effect_claim.isSome = true) (hask : ask.operation_id = id)
    (h : s.effectAnswer lib ask source runner = .ok (op', allowed)) : allowed = false := by
  obtain ⟨before, e', hopened, -, he', hclaim⟩ := effectAnswer_ok h
  have hget := (State.opened_ok hopened).2
  rw [hask, hop] at hget
  cases hget
  cases he.symm.trans (checkExecution_ok he')
  obtain ⟨-, ⟨-, -, hfalse⟩ | ⟨hnone, -⟩⟩ := effectStartClaim_ok hclaim
  · exact hfalse
  · simp [hnone] at hclaimed

/-- In every run of the task database: every state has one claim for each intent, phases that
say what was recorded, and links to the candidates of the captures; what was recorded stays,
and nothing is begun after a cancellation; and an effect is allowed once at most. -/
theorem execution_protocol (lib : Library) : (∀ s, (system lib).Reach Drawn s → Effected lib s) ∧
    (∀ s t, (system lib).Reach Drawn s → (system lib).Path Drawn s t → ∀ id op,
      s.operations.get? id = some op → ∃ op', t.operations.get? id = some op' ∧
        (∀ e, op.execution = some e → ∃ e', op'.execution = some e' ∧ e.Continues e') ∧
        (op.cancel_requested = true → (op.execution = none → op'.execution = none) ∧
          (∀ e, op.execution = some e → ∃ e', op'.execution = some e' ∧ e.Stopped e') ∧
          ∀ ask source w guard held, ask.operation_id = id → t.entered lib ask source w guard ≠ .ok held)) ∧
    ∀ s t ask source runner op, (system lib).Reach Drawn s →
      s.effectAnswer lib ask source runner = .ok (op, true) →
      (system lib).Path Drawn (s.step lib (.edit ask (.effectClaim source runner))) t →
      ∀ ask' source' runner' op' allowed, ask'.operation_id = ask.operation_id →
        t.effectAnswer lib ask' source' runner' = .ok (op', allowed) → allowed = false := by
  refine ⟨fun s hs => (funded hs).effected, fun s t hs hp id op hop => ?_,
    fun s t ask source runner op hs hallowed hp ask' source' runner' op' allowed hask h => ?_⟩
  · obtain ⟨hsucceeds, ht⟩ := succeeds (fun _ _ h => h) (funded hs).upright hp
    obtain ⟨op', hop', honward⟩ := hsucceeds.operations id op hop
    refine ⟨op', hop', fun e he => ?_, fun hcancel => ?_⟩
    · obtain ⟨e', he', hcontinues, -⟩ := honward.continues e he
      exact ⟨e', he', hcontinues⟩
    · obtain ⟨hcancel', hsame, -⟩ := honward.cancelled hcancel
      refine ⟨fun hnone => by simpa [hnone] using hsame, fun e he => ?_, fun ask source w guard held hask => ?_⟩
      · obtain ⟨e', he', -, hstopped⟩ := honward.continues e he
        exact ⟨e', he', hstopped hcancel⟩
      · exact entered_cancelled hop' hcancel' hask
  · have hfunded := funded hs
    obtain ⟨op₁, e₁, hop₁, he₁, hclaimed⟩ := allowed_claims hfunded.upright.kept hallowed
    have hnext : Upright (s.step lib (.edit ask (.effectClaim source runner))) := by
      refine (step_evolves hfunded.upright.kept _ ?_).upright hfunded.upright
      exact rfl
    obtain ⟨hsucceeds, -⟩ := succeeds (fun _ _ h => h) hnext hp
    obtain ⟨op₂, hop₂, honward⟩ := hsucceeds.operations _ op₁ hop₁
    obtain ⟨e₂, he₂, hcontinues, -⟩ := honward.continues e₁ he₁
    obtain ⟨claim, hclaim⟩ := isSome_iff_exists.mp hclaimed
    refine claimed_refused hop₂ he₂ ?_ hask h
    rw [hcontinues.claim claim hclaim]
    rfl

section Sample

def goSource : GoExecutionSource := ⟨"r", "n"⟩

def runner : ProcessIdentity := ⟨1, "birth"⟩

def intentWorld : IntentWorld := ⟨.ok runDocument, some 26⟩

/-- The reserved operation is executed, up to the intent to start. -/
def startActions : List (Action library) := [
  .prepareWorkspace (askFor "o") ⟨refreshAt 25, .ok runDocument, .ok ⟨"b", [], []⟩⟩,
  .prepareIntent (askFor "o") "prepare" goSource intentWorld,
  .enter (askFor "o") goSource intentWorld .activation,
  .activateExecution [] (Capacity.sampleWorld [27, 28] ""),
  .leave,
  .edit (askFor "o") (.activationRecorded goSource []),
  .edit (askFor "o") (.hostPrepared goSource (.snapshot ⟨"go-task-start:o", "x", "", "", ""⟩)),
  .edit (askFor "o") (.startUnknown goSource)]

def startedState : State := (system library).run admittedState startActions

def claimAction : Action library := .edit (askFor "o") (.effectClaim goSource runner)

theorem startedState_reach : (system library).Reach Drawn startedState :=
  admittedState_reach.path (.of_run ⟨rfl, rfl, rfl, rfl, rfl, rfl, rfl, rfl, trivial⟩)

/-- The effect of a started execution is allowed, and then it is not any more. -/
theorem execution_protocol_sample : (∃ intent, startedState.intentOf "o" = some intent ∧
      ClaimedOnce startedState.budgets "o" (some intent)) ∧
    (∃ op, startedState.effectAnswer library (askFor "o") goSource runner = .ok (op, true)) ∧
    ∀ op' allowed, (startedState.step library claimAction).effectAnswer library (askFor "o") goSource
      runner = .ok (op', allowed) → allowed = false := by
  obtain ⟨hstates, -, hallowed⟩ := execution_protocol library
  have hintent : (startedState.intentOf "o").isSome = true := by decide +kernel
  have hanswer : (startedState.effectAnswer library (askFor "o") goSource runner).toOption.map (·.2) =
      some true := by decide +kernel
  obtain ⟨intent, hintent⟩ := isSome_iff_exists.mp hintent
  have hfirst : ∃ op, startedState.effectAnswer library (askFor "o") goSource runner = .ok (op, true) := by
    cases h : startedState.effectAnswer library (askFor "o") goSource runner with
    | error e => simp [h, Except.toOption] at hanswer
    | ok r =>
      obtain ⟨op, allowed⟩ := r
      have hsame : allowed = true := by simpa [h, Except.toOption] using hanswer
      exact ⟨op, hsame ▸ rfl⟩
  refine ⟨⟨intent, hintent, hintent ▸ (hstates _ startedState_reach).claimed "o"⟩, hfirst, ?_⟩
  obtain ⟨op, hop⟩ := hfirst
  exact fun op' allowed => hallowed _ _ _ _ _ op startedState_reach hop .refl _ _ _ op' allowed rfl

end Sample

end Karajan.Tasks
