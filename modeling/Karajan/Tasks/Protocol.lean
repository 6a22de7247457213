import Karajan.Tasks.Executions

/-!
# Admission of a task

An operation is admitted and activated once at most, under its own request, and
when it is over it holds nothing. Its task has one live operation, as long as
no cancellation is served on an operation that is over while another one of
the task is live: a cancellation makes it live again.
-/

namespace Karajan.Tasks

open Check
open Capacity (Clocked)
variable {s s' t : State} {a : Action lib} {id : String}

-- Every state

/-- The reservation of a reserved operation is its own, under the request it was queued with. -/
structure Secured (s : State) (id : String) (op : Operation) (k : String) : Prop where
  receipt : ∃ decision, op.capacity_receipt = some decision ∧ decision.admission_id = some k ∧
    op.request = some decision.request
  item : ∃ item, s.store.item k = some item ∧ op.request = some item.request
  own : ∀ id', Owns s.store id' k ↔ id' = id

structure Orderly (s : State) : Prop where
  reserved : ∀ id op, s.operations.get? id = some op → op.state = .reserved → ∃ k, Secured s id op k
  asked : ∀ id op, s.operations.get? id = some op → ∀ decision, Answered s.store id decision →
    op.request = some decision.request
  activated : ∀ id, ¬ (Activated s.store (reviewerKey id) ∧ Activated s.store (activationKey id))
  cancelled : ∀ id op, s.operations.get? id = some op → op.cancel_requested = true → op.state ≠ .reserved
  ended : ∀ id op, s.operations.get? id = some op → op.execution = none → op.state.ended = true →
    ∀ k, Owns s.store id k → s.store.Unheld k

theorem Owns.apart (hs : s.store.Sound) (h : Owns s.store id k) (h' : Owns s.store id' k) : id' = id := by
  obtain ⟨decision, ⟨row, hrow, hdecided⟩, hk⟩ := h
  obtain ⟨decision', ⟨row', hrow', hdecided'⟩, hk'⟩ := h'
  have hkeys := hs.distinct _ _ row row' decision decision' k hrow hrow' ⟨hdecided, hk⟩ ⟨hdecided', hk'⟩
  exact ((start_eq (by decide) (by decide) hkeys).2).symm

theorem Kept.orderly (hs : Kept s) : Orderly s where
  reserved id op hop hstate := by
    have hholds := hs.holds id op hop
    have hid := hs.keyed id op hop
    obtain ⟨k, decision, hreceipt, hk⟩ := hholds.reserved hstate
    have hanswered := hholds.receipt decision hreceipt
    obtain ⟨row, hrow, hdecided⟩ := hanswered
    obtain ⟨decision', hdecided', hrequest⟩ := hholds.rows.request row hrow
    cases hdecided.symm.trans hdecided'
    obtain ⟨item, hitem, hsame⟩ := hs.sound.admitted _ row decision k hrow ⟨hdecided, hk⟩
    have howns : Owns s.store id k := hid ▸ ⟨decision, ⟨row, hrow, hdecided⟩, hk⟩
    refine ⟨k, ⟨decision, hreceipt, hk, hrequest⟩, ⟨item, hitem, hsame ▸ hrequest⟩, fun id' => ⟨?_, ?_⟩⟩
    · exact fun h => howns.apart hs.sound h
    · rintro rfl
      exact howns
  asked id op hop decision hanswered := by
    obtain ⟨row, hrow, hdecided⟩ := hanswered
    rw [← hs.keyed id op hop] at hrow
    obtain ⟨decision', hdecided', hrequest⟩ := (hs.holds id op hop).rows.request row hrow
    cases hdecided.symm.trans hdecided'
    exact hrequest
  activated id := by
    cases hop : s.operations.get? id with
    | none => exact (Rows.unused (hs.unused id hop) none).once
    | some op => exact hs.keyed id op hop ▸ (hs.holds id op hop).rows.once
  cancelled id op hop hcancel hstate := by
    have hstopping := (hs.holds id op hop).cancelling hcancel
    rw [hstate] at hstopping
    cases hstopping
  ended id op hop hexecution hended k howns := by
    rw [← hs.keyed id op hop] at howns
    exact (hs.holds id op hop).ended hexecution hended k howns

/-- What every later state keeps of an operation: its request, the one decision on it, its
activation, and, once it was cancelled, that nothing new is begun. -/
structure Lasts (s t : State) (id : String) (op op' : Operation) : Prop where
  request : op'.request = op.request
  decided : ∀ decision, Answered s.store id decision →
    ∀ decision', Answered t.store id decision' ↔ decision' = decision
  activated : ∀ key ∈ keysOf id, Activated s.store key → Activated t.store key
  cancelled : op.cancel_requested = true → op'.cancel_requested = true ∧ op'.state ≠ .reserved ∧
    (∀ decision, Answered t.store id decision ↔ Answered s.store id decision) ∧
    (op.execution = none → op'.execution = none) ∧
    ∀ e, op.execution = some e → ∃ e', op'.execution = some e' ∧ e.Stopped e'

theorem Succeeds.lasts (h : Succeeds s t) (hs : Kept s) (ht : Kept t) (hop : s.operations.get? id = some op) :
    ∃ op', t.operations.get? id = some op' ∧ Lasts s t id op op' := by
  obtain ⟨op', hop', honward⟩ := h.operations id op hop
  refine ⟨op', hop', honward.same.request, fun decision hd decision' => ⟨?_, ?_⟩, ?_, fun hcancel => ?_⟩
  · exact fun hd' => hd'.unique (hd.later h.later)
  · rintro rfl
    exact hd.later h.later
  · rintro key - ⟨row, activation, hrow, hresult⟩
    exact ⟨row, activation, h.later.rows key row hrow, hresult⟩
  · obtain ⟨hcancel', hsame, hrow⟩ := honward.cancelled hcancel
    rw [hs.keyed id op hop] at hrow
    refine ⟨hcancel', ht.orderly.cancelled id op' hop' hcancel', fun decision => ?_, ?_, ?_⟩
    · rw [Answered, Answered, hrow]
    · intro hnone
      simpa [hnone] using hsame
    · intro e he
      obtain ⟨e', he', -, hstopped⟩ := honward.continues e he
      exact ⟨e', he', hstopped hcancel⟩

-- One live operation

def SameTaskOf (op op' : Operation) : Prop := op.run_id = op'.run_id ∧ op.task_id = op'.task_id

def OneLive (s : State) : Prop := ∀ id op id' op', s.operations.get? id = some op →
  s.operations.get? id' = some op' → SameTaskOf op op' → op.state.live = true →
  op'.state.live = true → id = id'

def Action.cancels? : Action lib → Option String
  | .requestCancel ask => some ask.operation_id
  | .finishCancel operation_id _ => some operation_id
  | .other _ | .candidates _ | .claim _ | .enqueue .. | .get .. | .advance .. | .intendActivation ..
  | .sendActivation .. | .storeActivation .. | .prepareWorkspace .. | .prepareIntent .. | .edit ..
  | .enter .. | .activateExecution .. | .leave | .drop _ | .lost _ => none

/-- No cancellation is served on an operation that is expired, released or blocked, while
another operation of its run and task is live. -/
def Calm (s : State) (a : Action lib) : Prop :=
  ∀ id op id' op', a.cancels? = some id → s.operations.get? id = some op →
    op.state = .expired ∨ op.state = .released ∨ op.state = .blocked →
    s.operations.get? id' = some op' → id' ≠ id → SameTaskOf op op' → op'.state.live = false

theorem Turn.live (hkind : kind ≠ .cancel) (h : Turn lib kind candidates store op op') (hop : Holds store op)
    (hlive : op'.state.live = true) : op.state.live = true := by
  cases h with
  | recovered _ _ _ hbefore | adrift _ _ _ hbefore | lapsed _ _ _ _ _ hbefore => exact hbefore
  | answered _ _ hqueued | blocked _ _ hqueued => simp [hqueued, OperationState.live]
  | cancelRequested hcancel | cancelRefused _ _ hcancel => exact absurd hcancel hkind
  | cancelled => simp [Operation.cancelled, OperationState.live] at hlive
  | executing _ _ hstate => simp [hstate, OperationState.live]
  | edited e _ _ _ he =>
    have hexecutes := hop.executing (by simp [he])
    simp only [OperationState.executes, Bool.or_eq_true, decide_eq_true_eq] at hexecutes
    rcases hexecutes with ((hstate | hstate) | hstate) | hstate <;> simp [hstate, OperationState.live]
  | _ => exact hlive

theorem Turns.live (hkind : kind ≠ .cancel) (h : Turns lib kind candidates store op op') (hop : Holds store op)
    (hlive : op'.state.live = true) : op.state.live = true := by
  induction h with
  | refl => exact hlive
  | tail hturns hturn ih => exact ih (Turn.live hkind hturn (Turns.holds hturns hop) hlive)

theorem Turn.over (h : Turn lib kind candidates store op op') (hop : Holds store op)
    (hstate : op.state = .cancelled) : op'.state = .cancelled := by
  cases h with
  | recovered _ _ _ hlive | adrift _ _ _ hlive | lapsed _ _ _ _ _ hlive =>
    simp [hstate, OperationState.live] at hlive
  | answered _ _ hqueued | blocked _ _ hqueued => cases hstate.symm.trans hqueued
  | cancelRequested _ hne | cancelRefused _ _ _ hne => exact absurd hstate hne
  | cancelled => rfl
  | executing _ _ hreserved => cases hstate.symm.trans hreserved
  | edited e _ _ _ he =>
    have hexecutes := hop.executing (by simp [he])
    rw [hstate] at hexecutes
    cases hexecutes
  | _ => exact hstate

theorem Turns.over (h : Turns lib kind candidates store op op') (hop : Holds store op)
    (hstate : op.state = .cancelled) : op'.state = .cancelled := by
  induction h with
  | refl => exact hstate
  | tail hturns hturn ih => exact hturn.over (Turns.holds hturns hop) ih

theorem Evolves.oneLive (hkind : kind ≠ .cancel) (h : Evolves lib kind s s') (hs : OneLive s) : OneLive s' := by
  have hbefore : ∀ id op, s'.operations.get? id = some op → op.state.live = true →
      (∃ op₀, s.operations.get? id = some op₀ ∧ SameTask op₀ op ∧ op₀.state.live = true) ∨
        Added s'.operations id op := by
    intro id op hop hlive
    cases hold : s.operations.get? id with
    | none => exact .inr (h.added id op hop hold)
    | some op₀ =>
      obtain ⟨op₁, hop₁, hturns⟩ := h.turned id op₀ hold
      cases hop.symm.trans hop₁
      exact .inl ⟨op₀, rfl, Turns.same hturns, Turns.live hkind hturns (h.served.holds id op₀ hold) hlive⟩
  intro id op id' op' hop hop' htask hlive hlive'
  by_contra hne
  rcases hbefore id op hop hlive with ⟨op₀, hold, hsame, hlive₀⟩ | hadded
  · rcases hbefore id' op' hop' hlive' with ⟨op₀', hold', hsame', hlive₀'⟩ | hadded'
    · refine hne (hs id op₀ id' op₀' hold hold' ?_ hlive₀ hlive₀')
      exact ⟨by rw [← hsame.run_id, htask.1, hsame'.run_id], by rw [← hsame.task_id, htask.2, hsame'.task_id]⟩
    · have hquiet := hadded'.2 id op hop hne htask.1 htask.2
      cases hlive.symm.trans hquiet
  · have hquiet := hadded.2 id' op' hop' (fun heq => hne heq.symm) htask.1.symm htask.2.symm
    cases hlive'.symm.trans hquiet

theorem saved_frame {x : Visiting Operation} {E : Clocked → Prop}
    (h : Visit.Triple x s.store (fun op' _ => op'.id = id) E) (hne : id' ≠ id) :
    (s.saved (x s.store)).operations.get? id' = s.operations.get? id' := by
  unfold Visit.Triple at h
  rcases hx : x s.store with ⟨r, t⟩
  rw [hx] at h
  cases r with
  | error e => rfl
  | ok op' =>
    refine Dict.get?_put_of_ne ?_
    rw [h]
    exact hne.symm

theorem cancels_frame (hs : Kept s) (hcancel : a.cancels? = some id) (hne : id' ≠ id) :
    (s.step lib a).operations.get? id' = s.operations.get? id' := by
  cases a with
  | requestCancel ask =>
    cases hcancel
    show (s.orElse (s.cancelling <$> s.opened lib ask)).operations.get? id' = _
    cases hopened : s.opened lib ask with
    | error e => rfl
    | ok op =>
      have hid := hs.keyed _ _ (State.opened_ok hopened).2
      exact Dict.get?_put_of_ne (by rw [hid]; exact hne.symm)
  | finishCancel operation_id w =>
    cases hcancel
    unfold State.step
    split
    case isFalse => rfl
    case isTrue hcall =>
      refine saved_frame (E := Served s) ?_ hne
      refine (finishCancel_opened hs (hs.calls _ hcall)).mono ?_ fun _ h => h
      rintro op' t ⟨op, hop, -, hturns⟩
      exact (Turns.same hturns).id.trans (hs.keyed _ _ (State.continued_ok hop).2)
  | _ => cases hcancel

theorem ended_of_not_live {state : OperationState} (h : state.live ≠ true) (hne : state ≠ .cancelled) :
    state = .expired ∨ state = .released ∨ state = .blocked := by
  cases state <;> simp [OperationState.live] at h hne ⊢

theorem cancels_oneLive (hs : Kept s) (hone : OneLive s) (hcancel : a.cancels? = some id)
    (hcalm : Calm s a) (h : Evolves lib kind s (s.step lib a)) : OneLive (s.step lib a) := by
  have hother : ∀ id' op op', id' ≠ id → (s.step lib a).operations.get? id = some op →
      (s.step lib a).operations.get? id' = some op' → SameTaskOf op op' → op.state.live = true →
      op'.state.live ≠ true := by
    intro id' op op' hne hop hop' htask hlive hlive'
    rw [cancels_frame hs hcancel hne] at hop'
    cases hold : s.operations.get? id with
    | none =>
      obtain ⟨-, halone⟩ := h.added id op hop hold
      rw [← cancels_frame hs hcancel hne] at hop'
      have hquiet := halone id' op' hop' hne htask.1.symm htask.2.symm
      cases hlive'.symm.trans hquiet
    | some op₀ =>
      obtain ⟨op₁, hop₁, hturns⟩ := h.turned id op₀ hold
      cases hop.symm.trans hop₁
      have hsame := Turns.same hturns
      have htask₀ : SameTaskOf op₀ op' := ⟨hsame.run_id.symm.trans htask.1, hsame.task_id.symm.trans htask.2⟩
      by_cases hlive₀ : op₀.state.live = true
      · exact hne (hone id op₀ id' op' hold hop' htask₀ hlive₀ hlive').symm
      · have hne_cancelled : op₀.state ≠ .cancelled := by
          intro hstate
          have hover := Turns.over hturns (h.served.holds id op₀ hold) hstate
          simp [hover, OperationState.live] at hlive
        have hquiet := hcalm id op₀ id' op' hcancel hold (ended_of_not_live hlive₀ hne_cancelled) hop' hne
          htask₀
        cases hlive'.symm.trans hquiet
  intro id₁ op₁ id₂ op₂ hop₁ hop₂ htask hlive₁ hlive₂
  by_contra hne
  by_cases h₁ : id₁ = id
  · subst h₁
    exact hother id₂ op₁ op₂ (fun heq => hne heq.symm) hop₁ hop₂ htask hlive₁ hlive₂
  · by_cases h₂ : id₂ = id
    · subst h₂
      exact hother id₁ op₂ op₁ h₁ hop₂ hop₁ ⟨htask.1.symm, htask.2.symm⟩ hlive₂ hlive₁
    · rw [cancels_frame hs hcancel h₁] at hop₁
      rw [cancels_frame hs hcancel h₂] at hop₂
      exact hne (hone id₁ op₁ id₂ op₂ hop₁ hop₂ htask hlive₁ hlive₂)

theorem step_oneLive (hs : Kept s) (hone : OneLive s) (hdrawn : Drawn s a) (hcalm : Calm s a) :
    OneLive (s.step lib a) := by
  have hevolves := step_evolves hs a hdrawn
  cases a with
  | requestCancel ask | finishCancel operation_id w => exact cancels_oneLive hs hone rfl hcalm hevolves
  | _ => exact hevolves.oneLive (by simp [Action.kind]) hone

/-- In every run of the task database: every state is orderly, what was decided of an operation
lasts, and as long as no cancellation is served on an operation that is over beside a live
one, no task has two live operations. -/
theorem task_protocol (lib : Library) : (∀ s, (system lib).Reach Drawn s → Orderly s) ∧
    (∀ s t, (system lib).Reach Drawn s → (system lib).Path Drawn s t → ∀ id op,
      s.operations.get? id = some op → ∃ op', t.operations.get? id = some op' ∧ Lasts s t id op op') ∧
    ∀ s, (system lib).Reach (fun s a => Drawn s a ∧ Calm s a) s → OneLive s := by
  refine ⟨fun s hs => (upright (fun _ _ h => h) hs).kept.orderly, fun s t hs hp id op hop => ?_, fun s hs => ?_⟩
  · have hupright := upright (fun _ _ h => h) hs
    obtain ⟨hsucceeds, ht⟩ := succeeds (fun _ _ h => h) hupright hp
    exact hsucceeds.lasts hupright.kept ht.kept hop
  · have hboth : Kept s ∧ OneLive s := by
      refine hs.invariant (I := fun s => Kept s ∧ OneLive s) (fun i hi => ?_) fun s a hs ha => ?_
      · refine ⟨(initial_upright hi).kept, fun id op _ _ hop => ?_⟩
        rw [hi.1] at hop
        cases hop
      · exact ⟨(step_evolves hs.1 a ha.1).kept hs.1, step_oneLive hs.1 hs.2 ha.1 ha.2⟩
    exact hboth.2

-- Runs

section Sample

def library : Library where
  digest _ := ""
  identifier _ := true
  capacity := Capacity.sampleLibrary
  candidates := ⟨fun _ => "", fun _ => "", fun _ => "", fun _ => true, fun s => s, fun s => s⟩

def planKeys : PlanKeys := ⟨1, "d", "a", "c", "r"⟩

def approval : Approval := ⟨planKeys, 1, "approval"⟩

def policy : PolicySnapshot := ⟨"e", "policy"⟩

def profile : ProfileRef := ⟨"f", 1⟩

def registration : RegisteredProfile := ⟨profile, "opencode-go-isolated", "glm-5.3-flash", "c", "profile"⟩

def runDocument : RunDocument where
  id := "n"
  project_id := "j"
  owner := "w"
  executing := true
  plans := [⟨planKeys, 1, [⟨"t", .worker, [], true, ["read", "edit"]⟩], "b"⟩]
  approvals := [approval]
  active_plan_revision := some 1
  configuration_digest := "c"
  execution_policy := policy
  profiles := [registration]
  budgets := [⟨"b", some 2, some 60⟩]

def profileSource : ProfileSource where
  profile := profile
  execution_context := some ⟨5, "e", "context"⟩
  authentication := some ⟨"g", "authentication"⟩
  document := "source"

def route : Route where
  selected_profile := profile
  expectations := [⟨profile, 1, Dict.empty.put "p" "w", false⟩]
  estimates := [⟨profile, [("p", ⟨"4", 4000000⟩)]⟩]
  rulebook := "rulebook"
  task := ⟨.worker, none, 20, "t", "b"⟩

/-- An assessment of the task, which selected a profile or did not. -/
def assessmentOf (selected : Option Route) : Assessment where
  id := "s"
  digest := "s"
  run_id := "n"
  planned_attempt_id := "x"
  planned_context_id := "y"
  reason_codes := []
  selected
  approval := approval
  routing_digest := "r"
  execution_policy_digest := "e"
  profiles := [profileSource]
  reviewer_lineage := none

def askFor (operation_id : String) : Ask := ⟨"n", operation_id, "w", .ok ()⟩

def refreshAt (reading : Rat) : RefreshWorld := ⟨[], [], some reading⟩

def enqueueAs (identity : String) (selected : Option Route) : Action library :=
  .enqueue (askFor "") "t" ("enqueue-" ++ identity)
    ⟨fun _ => refreshAt 20, identity, .ok runDocument, false, .ok (assessmentOf selected)⟩

def otherCommand (command_key : String) (c : Capacity.Command) (clock : List Rat)
    (h : ownKey command_key = false) : Action library :=
  .other ⟨⟨command_key, c, Capacity.sampleWorld clock ""⟩, h⟩

def accountActions : List (Action library) := [
  otherCommand "1" (.registerPool Capacity.samplePool) [] (by decide),
  otherCommand "2" (.registerProfile Capacity.sampleProfile) [] (by decide),
  otherCommand "3" (.activatePolicy Capacity.samplePolicy 0) [] (by decide),
  otherCommand "4" (.observe Capacity.sampleObservation) [10] (by decide)]

def advanceWorld : AdvanceWorld where
  refresh := refreshAt 20
  lookup := []
  run := .ok runDocument
  bindings := false
  current := .ok (assessmentOf (some route))
  admitting := []
  capacity := Capacity.sampleWorld [20, 21, 22, 23] "k"
  code := ""
  admitted := refreshAt 24

def admissionActions : List (Action library) :=
  accountActions ++ [enqueueAs "o" (some route), .advance (askFor "o") advanceWorld]

def begin : State := ⟨.empty, .empty, some .empty, ⟨.empty, 0⟩, Candidates.empty, [], none⟩

def admittedState : State := (system library).run begin admissionActions

def cancelActions : List (Action library) :=
  [.requestCancel (askFor "o"), .finishCancel "o" ⟨[], [], [], Capacity.sampleWorld [30, 31] ""⟩]

def cancelledState : State := (system library).run admittedState cancelActions

instance : Decidable (Drawn s a) := inferInstanceAs (Decidable (_ = true))

theorem begin_initial : (system library).initial begin := ⟨rfl, rfl, .inr rfl, rfl, rfl, rfl, rfl⟩

theorem meets_calm (h : (system lib).Meets Drawn s as) (hnone : ∀ a ∈ as, a.cancels? = none) :
    (system lib).Meets (fun s a => Drawn s a ∧ Calm s a) s as := by
  induction as generalizing s with
  | nil => trivial
  | cons a as ih =>
    refine ⟨⟨h.1, ?_⟩, ih h.2 fun b hb => hnone b (List.mem_cons_of_mem _ hb)⟩
    intro id op id' op' hcancel
    cases (hnone a (by simp)).symm.trans hcancel

theorem admittedState_meets : (system library).Meets Drawn begin admissionActions := by
  decide +kernel

theorem admittedState_reach : (system library).Reach Drawn admittedState :=
  .of_run begin_initial admittedState_meets

theorem cancelledState_path : (system library).Path Drawn admittedState cancelledState :=
  .of_run ⟨rfl, rfl, trivial⟩

/-- A task is admitted, and given up again. -/
theorem task_protocol_sample :
    (∃ op k, admittedState.operations.get? "o" = some op ∧ Secured admittedState "o" op k ∧
      ∃ op', cancelledState.operations.get? "o" = some op' ∧ op'.state = .cancelled ∧
        Lasts admittedState cancelledState "o" op op') ∧ OneLive admittedState := by
  obtain ⟨horderly, hlasts, hone⟩ := task_protocol library
  refine ⟨?_, hone _ (.of_run begin_initial (meets_calm admittedState_meets ?_))⟩
  · have hreserved : (admittedState.operations.get? "o").map (·.state) = some .reserved := by
      decide +kernel
    have hcancelled : (cancelledState.operations.get? "o").map (·.state) = some .cancelled := by
      decide +kernel
    obtain ⟨op, hop, hstate⟩ := Option.map_eq_some_iff.mp hreserved
    obtain ⟨k, hk⟩ := (horderly _ admittedState_reach).reserved "o" op hop hstate
    obtain ⟨op', hop', hlast⟩ := hlasts _ _ admittedState_reach cancelledState_path "o" op hop
    rw [hop'] at hcancelled
    exact ⟨op, k, hop, hk, op', hop', by simpa using hcancelled, hlast⟩
  · decide

/-- An operation that was blocked is cancelled, after another one was queued. -/
def revivedActions : List (Action library) :=
  [enqueueAs "o" none, enqueueAs "q" (some route), .requestCancel (askFor "o")]

def revivedState : State := (system library).run begin revivedActions

/-- The cancellation of a blocked operation makes it live, beside the one that followed it. -/
theorem live_twice : ∃ s, (system library).Reach Drawn s ∧ ¬ OneLive s := by
  refine ⟨revivedState, .of_run begin_initial (by decide +kernel), fun hone => ?_⟩
  have hfirst : (revivedState.operations.get? "o").map
      (fun op => (op.run_id, op.task_id, op.state.live)) = some ("n", "t", true) := by decide +kernel
  have hsecond : (revivedState.operations.get? "q").map
      (fun op => (op.run_id, op.task_id, op.state.live)) = some ("n", "t", true) := by decide +kernel
  obtain ⟨op, hop, htask⟩ := Option.map_eq_some_iff.mp hfirst
  obtain ⟨op', hop', htask'⟩ := Option.map_eq_some_iff.mp hsecond
  simp only [Prod.mk.injEq] at htask htask'
  have hsame := hone "o" op "q" op' hop hop' ⟨htask.1.trans htask'.1.symm,
    htask.2.1.trans htask'.2.1.symm⟩ htask.2.2 htask'.2.2
  exact absurd hsame (by decide)

end Sample

end Karajan.Tasks
