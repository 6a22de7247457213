import Karajan.Tasks.Runs

/-!
# What an execution goes through

An execution moves through its phases in one order. What is written of it is
written once, and where its operation was cancelled nothing of a new effect is
written any more.
-/

namespace Karajan.Tasks

open Check
open Capacity (Clocked)
variable {lib : Library} {e e' e'' : Execution}

-- One execution

inductive Phase.Next : Phase → Phase → Prop
  | activated : Next .prepared .activated
  | rejected : Next .prepared .activationRejected
  | started : Next .activated .startUnknown
  | claimed : Next .startUnknown .effectClaimed
  | recorded : Next .effectClaimed .candidateRecorded

def Phase.effective (phase : Phase) : Bool := phase = .effectClaimed || phase = .candidateRecorded

def Stays (before after : Option α) : Prop := ∀ a, before = some a → after = some a

theorem Stays.refl (o : Option α) : Stays o o := fun _ h => h

theorem Stays.trans {o o' o'' : Option α} (h : Stays o o') (h' : Stays o' o'') : Stays o o'' :=
  fun a ha => h' a (h a ha)

theorem Stays.of_none {o : Option α} (h : o = none) (o' : Option α) : Stays o o' := by
  intro a ha
  cases h.symm.trans ha

structure Execution.Proper (e : Execution) : Prop where
  idle : e.capacity_activation = none ↔ e.phase = .prepared
  claimed : e.effect_claim.isSome = true ↔ e.phase.effective = true
  collected : e.collection.isSome = true → e.phase.effective = true
  linked : (e.collection.bind (·.candidate)).isSome = true ↔ e.phase = .candidateRecorded

open Phase (effective Next)

/-- What every later state of an execution keeps of an earlier one. -/
structure Execution.Continues (e e' : Execution) : Prop where
  intent : e'.intent = e.intent
  intent_digest : e'.intent_digest = e.intent_digest
  phase : Relation.ReflTransGen Next e.phase e'.phase
  activation : Stays e.capacity_activation e'.capacity_activation
  claim : Stays e.effect_claim e'.effect_claim
  launch : Stays e.launch e'.launch
  capture : Stays (e.collection.map (·.capture)) (e'.collection.map (·.capture))
  candidate : Stays (e.collection.bind (·.candidate)) (e'.collection.bind (·.candidate))

structure Execution.Stopped (e e' : Execution) : Prop where
  started : e'.phase = .startUnknown → e.phase = .startUnknown
  claim : e'.effect_claim = e.effect_claim
  launch : e'.launch = e.launch
  capture : e'.collection.map (·.capture) = e.collection.map (·.capture)

namespace Execution

theorem Continues.refl (e : Execution) : e.Continues e where
  intent := rfl
  intent_digest := rfl
  phase := .refl
  activation := .refl _
  claim := .refl _
  launch := .refl _
  capture := .refl _
  candidate := .refl _

theorem Continues.trans (h : e.Continues e') (h' : e'.Continues e'') : e.Continues e'' where
  intent := h'.intent.trans h.intent
  intent_digest := h'.intent_digest.trans h.intent_digest
  phase := h.phase.trans h'.phase
  activation := h.activation.trans h'.activation
  claim := h.claim.trans h'.claim
  launch := h.launch.trans h'.launch
  capture := h.capture.trans h'.capture
  candidate := h.candidate.trans h'.candidate

theorem Stopped.refl (e : Execution) : e.Stopped e := ⟨fun h => h, rfl, rfl, rfl⟩

theorem Stopped.trans (h : e.Stopped e') (h' : e'.Stopped e'') : e.Stopped e'' where
  started := fun hstarted => h.started (h'.started hstarted)
  claim := h'.claim.trans h.claim
  launch := h'.launch.trans h.launch
  capture := h'.capture.trans h.capture

end Execution

theorem newExecution_proper (intent : Intent) : (newExecution lib intent).Proper where
  idle := by simp [newExecution]
  claimed := by simp [newExecution, effective]
  collected := by simp [newExecution]
  linked := by simp [newExecution]

theorem Advance.proper (h : Advance lib candidates cancelled e e') (he : e.Proper) : e'.Proper := by
  cases h with
  | activated receipt hnone hrevalidated =>
    have hphase := he.idle.mp hnone
    have hclaimed := he.claimed
    have hcollected := he.collected
    have hlinked := he.linked
    simp only [hphase] at hclaimed hcollected hlinked
    constructor
    case idle => simp [hphase]
    case claimed => simpa [hphase, effective] using hclaimed
    case collected => simpa [hphase, effective] using hcollected
    case linked => simpa [hphase] using hlinked
  | rejected receipt hnone =>
    have hphase := he.idle.mp hnone
    have hclaimed := he.claimed
    have hcollected := he.collected
    have hlinked := he.linked
    simp only [hphase] at hclaimed hcollected hlinked
    constructor
    case idle => simp
    case claimed => simpa [effective] using hclaimed
    case collected => simpa [effective] using hcollected
    case linked => simpa using hlinked
  | started hcancel hphase =>
    have hidle := he.idle
    have hclaimed := he.claimed
    have hcollected := he.collected
    have hlinked := he.linked
    simp only [hphase] at hidle hclaimed hcollected hlinked
    constructor
    case idle => simpa using hidle
    case claimed => simpa [effective] using hclaimed
    case collected => simpa [effective] using hcollected
    case linked => simpa using hlinked
  | claimed runner hcancel hnone hphase =>
    have hidle := he.idle
    have hlinked := he.linked
    simp only [hphase] at hidle hlinked
    constructor
    case idle => simpa using hidle
    case claimed => simp [effective]
    case collected => simp [effective]
    case linked => simpa using hlinked
  | captured capture hcancel hnone hphase =>
    refine { he with collected := fun _ => ?_, linked := ?_ }
    · simp [hphase, effective]
    · simp [hphase]
  | linked collection candidate hcollection hlookup hsame =>
    have hphase : e.phase.effective = true := he.collected (by simp [hcollection])
    have hidle : e.phase ≠ .prepared := by
      intro heq
      simp [heq, effective] at hphase
    constructor
    case idle => simpa using fun hnone => hidle (he.idle.mp hnone)
    case claimed => simpa [effective] using he.claimed.mpr hphase
    case collected => simp [effective]
    case linked => simp
  | _ => exact { he with }

open Karajan.Tasks.Execution (Continues Stopped)

theorem Advance.continues (h : Advance lib candidates cancelled e e') (he : e.Proper) : e.Continues e' := by
  have hstays := Continues.refl e
  cases h with
  | launched launch _ hnone => exact { hstays with launch := .of_none hnone _ }
  | activated receipt hnone =>
    have hphase := he.idle.mp hnone
    refine { hstays with activation := .of_none hnone _, phase := ?_ }
    simpa [hphase] using Relation.ReflTransGen.single Next.activated
  | rejected receipt hnone =>
    have hphase := he.idle.mp hnone
    refine { hstays with activation := .of_none hnone _, phase := ?_ }
    simpa [hphase] using Relation.ReflTransGen.single Next.rejected
  | started _ hphase =>
    refine { hstays with phase := ?_ }
    simpa [hphase] using Relation.ReflTransGen.single Next.started
  | claimed runner _ hnone hphase =>
    refine { hstays with claim := .of_none hnone _, phase := ?_ }
    simpa [hphase] using Relation.ReflTransGen.single Next.claimed
  | captured capture _ hnone =>
    exact { hstays with capture := .of_none (by simp [hnone]) _, candidate := .of_none (by simp [hnone]) _ }
  | linked collection candidate hcollection _ hsame =>
    refine { hstays with phase := ?_, capture := ?_, candidate := ?_ }
    · have hphase : e.phase.effective = true := he.collected (by simp [hcollection])
      simp only [effective, Bool.or_eq_true, decide_eq_true_eq] at hphase
      rcases hphase with hphase | hphase
      · simpa [hphase] using Relation.ReflTransGen.single Next.recorded
      · simpa [hphase] using Relation.ReflTransGen.refl
    · simp [Stays, hcollection]
    · intro found hfound
      simp only [hcollection, Option.bind_some] at hfound
      simp only [hfound, Option.all_some, decide_eq_true_eq] at hsame
      simp [hsame]
  | _ => exact { hstays with }

theorem Advance.stopped (h : Advance lib candidates true e e') : e.Stopped e' := by
  cases h with
  | activated receipt hnone =>
    refine { Stopped.refl e with started := ?_ }
    dsimp only
    split <;> simp
  | rejected => exact { Stopped.refl e with started := by simp }
  | linked collection candidate hcollection =>
    exact { Stopped.refl e with started := by simp, capture := by simp [hcollection] }
  | launched _ hcancel | started hcancel | claimed _ hcancel | captured _ hcancel => cases hcancel
  | _ => exact { Stopped.refl e with }

-- The execution of an operation

def Operation.Proper (op : Operation) : Prop := ∀ e, op.execution = some e → e.Proper

def Operation.Continues (op op' : Operation) : Prop :=
  ∀ e, op.execution = some e → ∃ e', op'.execution = some e' ∧ e.Continues e' ∧
    (op.cancel_requested = true → e.Stopped e')

section
variable (h : Turn lib kind candidates store op op') (hop : op.Proper)
include h hop

theorem Turn.proper : op'.Proper := by
  cases h with
  | cancelRequested _ hstate =>
    rw [Operation.requestCancel_eq hstate]
    intro e he
    obtain ⟨e₀, he₀, rfl⟩ := Option.map_eq_some_iff.mp he
    exact { hop e₀ he₀ with }
  | executing intent =>
    intro e he
    cases he
    exact newExecution_proper intent
  | edited e e' _ _ he hadvance =>
    intro e₁ he₁
    cases he₁
    exact hadvance.proper (hop e he)
  | _ => exact hop

theorem Turn.continues : op.Continues op' := by
  cases h with
  | cancelRequested _ hstate =>
    rw [Operation.requestCancel_eq hstate]
    intro e he
    refine ⟨{ e with cancel_requested := true }, by simp [he], { Continues.refl e with }, ?_⟩
    exact fun _ => { Stopped.refl e with }
  | executing _ _ _ hnone =>
    intro e he
    cases hnone.symm.trans he
  | edited e e' _ _ he hadvance =>
    intro e₁ he₁
    cases he.symm.trans he₁
    refine ⟨e', rfl, hadvance.continues (hop e he), fun hcancel => ?_⟩
    rw [hcancel] at hadvance
    exact hadvance.stopped
  | _ => exact fun e he => ⟨e, he, .refl e, fun _ => .refl e⟩

end

theorem Operation.Continues.refl (op : Operation) : op.Continues op :=
  fun e he => ⟨e, he, .refl e, fun _ => .refl e⟩

section
variable (h : Turns lib kind candidates store op op') (hop : op.Proper)
include h hop

theorem Turns.proper : op'.Proper := by
  induction h with
  | refl => exact hop
  | tail _ hturn ih => exact hturn.proper ih

theorem Turns.continues : op.Continues op' := by
  induction h with
  | refl => exact .refl op
  | tail hturns hturn ih =>
    intro e he
    obtain ⟨e₁, he₁, hcontinues, hstopped⟩ := ih e he
    obtain ⟨e₂, he₂, hcontinues', hstopped'⟩ := hturn.continues (Turns.proper hturns hop) e₁ he₁
    refine ⟨e₂, he₂, hcontinues.trans hcontinues', fun hcancel => ?_⟩
    exact (hstopped hcancel).trans (hstopped' (Turns.cancels hturns hcancel).1)

end

-- Runs

/-- The operations are kept, and the phases of their executions are proper. -/
structure Upright (s : State) : Prop where
  kept : Kept s
  proper : ∀ id op, s.operations.get? id = some op → op.Proper

structure Onward (store store' : Clocked) (op op' : Operation) : Prop where
  same : SameTask op op'
  continues : op.Continues op'
  cancelled : op.cancel_requested = true → op'.cancel_requested = true ∧
    op'.execution.isSome = op.execution.isSome ∧
    store'.row (admitKey op.id) = store.row (admitKey op.id)

structure Succeeds (s t : State) : Prop where
  later : s.store.Later t.store
  operations : ∀ id op, s.operations.get? id = some op →
    ∃ op', t.operations.get? id = some op' ∧ Onward s.store t.store op op'

theorem Evolves.upright (h : Evolves lib kind s s') (hs : Upright s) : Upright s' where
  kept := h.kept hs.kept
  proper id op' hop' := by
    cases hop : s.operations.get? id with
    | none =>
      obtain ⟨⟨_, _, _, _, rfl⟩, -⟩ := h.added id op' hop' hop
      intro e he
      cases he
    | some op =>
      obtain ⟨op'', hop'', hturns⟩ := h.turned id op hop
      cases hop'.symm.trans hop''
      exact Turns.proper hturns (hs.proper id op hop)

theorem Evolves.succeeds (h : Evolves lib kind s s') (hs : Upright s) : Succeeds s s' where
  later := h.served.later
  operations id op hop := by
    obtain ⟨op', hop', hturns⟩ := h.turned id op hop
    refine ⟨op', hop', Turns.same hturns, Turns.continues hturns (hs.proper id op hop), fun hcancel => ?_⟩
    obtain ⟨hstill, hsame⟩ := Turns.cancels hturns hcancel
    refine ⟨hstill, hsame, ?_⟩
    have hholds := hs.kept.holds id op hop
    rw [hs.kept.keyed id op hop]
    refine h.served.asked id op hop fun hqueued => ?_
    cases hcancel.symm.trans (hholds.idle hqueued).2

theorem Succeeds.refl (s : State) : Succeeds s s where
  later := .refl _
  operations _ op hop := ⟨op, hop, ⟨⟨rfl, rfl, rfl, rfl⟩, .refl op, fun hcancel => ⟨hcancel, rfl, rfl⟩⟩⟩

theorem Succeeds.trans (h : Succeeds s s') (h' : Succeeds s' t) : Succeeds s t where
  later := h.later.trans h'.later
  operations id op hop := by
    obtain ⟨op₁, hop₁, honward⟩ := h.operations id op hop
    obtain ⟨op₂, hop₂, honward'⟩ := h'.operations id op₁ hop₁
    refine ⟨op₂, hop₂, ⟨?_, ?_, ?_, ?_⟩, ?_, ?_⟩
    · exact honward'.same.id.trans honward.same.id
    · exact honward'.same.run_id.trans honward.same.run_id
    · exact honward'.same.task_id.trans honward.same.task_id
    · exact honward'.same.request.trans honward.same.request
    · intro e he
      obtain ⟨e₁, he₁, hcontinues, hstopped⟩ := honward.continues e he
      obtain ⟨e₂, he₂, hcontinues', hstopped'⟩ := honward'.continues e₁ he₁
      exact ⟨e₂, he₂, hcontinues.trans hcontinues', fun hcancel =>
        (hstopped hcancel).trans (hstopped' (honward.cancelled hcancel).1)⟩
    · intro hcancel
      obtain ⟨hcancel₁, hsame, hrow⟩ := honward.cancelled hcancel
      obtain ⟨hcancel₂, hsame', hrow'⟩ := honward'.cancelled hcancel₁
      rw [honward.same.id] at hrow'
      exact ⟨hcancel₂, hsame'.trans hsame, hrow'.trans hrow⟩

theorem initial_upright (h : initial s) : Upright s := by
  obtain ⟨hoperations, -, -, hstore, -, hcalls, hheld⟩ := h
  have hrows : ∀ key, s.store.row key = none := by
    intro key
    rw [Clocked.row, hstore]
    rfl
  have hitems : ∀ k, s.store.item k = none := by
    intro k
    rw [Clocked.item, hstore]
    rfl
  refine ⟨⟨⟨?_, ?_, ?_⟩, ?_, ?_, fun _ _ key _ => hrows key, ?_, ?_⟩, ?_⟩
  · intro k item hitem
    exact absurd ((hitems k).symm.trans hitem) (by simp)
  · intro key row _ _ hrow
    cases (hrows key).symm.trans hrow
  · intro key _ row _ _ _ _ hrow
    cases (hrows key).symm.trans hrow
  · simp [hoperations]
  · simp [hoperations]
  · simp [hcalls]
  · simp [hheld]
  · simp [hoperations]

theorem upright (hok : ∀ s a, ok s a → Drawn s a) (h : (system lib).Reach ok s) : Upright s :=
  h.invariant (fun _ => initial_upright) fun s a hs ha =>
    (step_evolves hs.kept a (hok s a ha)).upright hs

theorem succeeds (hok : ∀ s a, ok s a → Drawn s a) (hs : Upright s) (h : (system lib).Path ok s t) :
    Succeeds s t ∧ Upright t := by
  induction h with
  | refl => exact ⟨.refl s, hs⟩
  | step _ ha ih =>
    have hevolves := step_evolves ih.2.kept _ (hok _ _ ha)
    exact ⟨ih.1.trans (hevolves.succeeds ih.2), hevolves.upright ih.2⟩

end Karajan.Tasks
