import Karajan.Tasks.Edits

/-!
# Runs of the task database

Every step, served or lost, leaves the store in agreement with each operation;
a step that is served turns one operation, or adds a new one. Calls between
their transactions, and the guard that is held, are about operations as they
are.
-/

namespace Karajan.Tasks

open Check
open Capacity (AdmissionRequest Clocked)
open Visit (Triple)

variable {s s' : State} {operations operations' : Operations} {id : String}

-- What is kept

def CallOk (operations : Operations) (store : Clocked) : Call → Prop
  | .activate id intent => (∃ op, operations.get? id = some op) ∧
      intent.command_key = reviewerKey id ∧ Owns store id intent.admission_id
  | .answered _ _ _ => True
  | .cancel id => ∃ op, operations.get? id = some op ∧ op.cancel_requested = true ∧ op.execution = none

def HeldOk (operations : Operations) (held : Held) : Prop :=
  ∃ op, operations.get? held.operation_id = some op ∧ op.execution = some held.execution ∧
    op.cancel_requested = false

structure Kept (s : State) : Prop where
  sound : s.store.Sound
  keyed : ∀ id op, s.operations.get? id = some op → op.id = id
  holds : ∀ id op, s.operations.get? id = some op → Holds s.store op
  unused : ∀ id, s.operations.get? id = none → ∀ key ∈ keysOf id, s.store.row key = none
  calls : ∀ call ∈ s.calls, CallOk s.operations s.store call
  held : ∀ held, s.held = some held → HeldOk s.operations held

/-- What the store may become, whether the transaction is saved or not. -/
structure Served (s : State) (store' : Clocked) : Prop where
  sound : store'.Sound
  later : s.store.Later store'
  holds : ∀ id op, s.operations.get? id = some op → Holds store' op
  unused : ∀ id, s.operations.get? id = none → ∀ key ∈ keysOf id, store'.row key = none
  asked : ∀ id op, s.operations.get? id = some op → op.state ≠ .queued →
    store'.row (admitKey id) = s.store.row (admitKey id)

theorem Served.left (hs : Kept s) (hop : s.operations.get? op.id = some op)
    (h : Left keys s.store op store') (hkeys : ∀ key ∈ keys, key ∈ keysOf op.id) : Served s store' where
  sound := h.goes.sound
  later := h.goes.later
  holds id other hother := by
    by_cases hid : id = op.id
    · subst hid
      cases hother.symm.trans hop
      exact h.holds
    · refine (hs.holds id other hother).goes h.goes fun key hkey hmem => ?_
      rw [hs.keyed id other hother] at hkey
      exact keysOf_apart hid hkey (hkeys key hmem)
  unused id hnone key hkey := by
    have hid : id ≠ op.id := by
      rintro rfl
      cases hnone.symm.trans hop
    rw [h.goes.rows key (keysOf_own hkey) fun hmem => keysOf_apart hid hkey (hkeys key hmem)]
    exact hs.unused id hnone key hkey
  asked id other hother hstate := by
    by_cases hid : id = op.id
    · subst hid
      cases hother.symm.trans hop
      exact h.asked.resolve_left hstate
    · exact h.goes.rows _ (keysOf_own admitKey_mem) fun hmem =>
        keysOf_apart hid admitKey_mem (hkeys _ hmem)

theorem Served.calm (hs : Kept s) (h : Goes [] s.store store') : Served s store' :=
  { h with
    holds := fun id op hop => (hs.holds id op hop).calm h
    unused := fun id hnone key hkey => (h.rows key (keysOf_own hkey) (by simp)).trans (hs.unused id hnone key hkey)
    asked := fun id op _ _ => h.rows _ (keysOf_own admitKey_mem) (by simp) }

theorem Served.refl (hs : Kept s) : Served s s.store := .calm hs (.refl hs.sound)

/-- An operation that was added is new, and no other of its task is live then. -/
def Added (operations : Operations) (id : String) (op : Operation) : Prop :=
  (∃ run_id task_id assessment request, op = newOperation id run_id task_id assessment request) ∧
    ∀ id' other, operations.get? id' = some other → id' ≠ id → other.run_id = op.run_id →
      other.task_id = op.task_id → other.state.live = false

structure Evolves (lib : Library) (kind : Kind) (s s' : State) : Prop where
  served : Served s s'.store
  turned : ∀ id op, s.operations.get? id = some op →
    ∃ op', s'.operations.get? id = some op' ∧ Turns lib kind s.candidates.store s'.store op op'
  added : ∀ id op, s'.operations.get? id = some op → s.operations.get? id = none → Added s'.operations id op
  calls : ∀ call ∈ s'.calls, call ∈ s.calls ∨ CallOk s'.operations s'.store call
  held : ∀ held, s'.held = some held → HeldOk s'.operations held

theorem newOperation_holds (h : ∀ key ∈ keysOf id, store.row key = none) :
    Holds store (newOperation id run_id task_id assessment request) where
  rows := Rows.unused h _
  receipt := by simp [newOperation]
  reserved := by cases hsome : request.isSome <;> simp [newOperation, hsome]
  cancelling := by simp [newOperation]
  executing := by simp [newOperation]
  ended _ _ k howns := by
    obtain ⟨_, ⟨row, hrow, -⟩, -⟩ := howns
    cases (h _ admitKey_mem).symm.trans hrow
  intent intent hintent := by
    cases hsome : assessment.reviewer_lineage.isSome <;>
      simp [newOperation, hsome, Operation.intent?, ReviewerActivation.intent?] at hintent
  execution := by simp [newOperation]

theorem Turn.cancels (h : Turn lib kind candidates store op op') (hcancel : op.cancel_requested = true) :
    op'.cancel_requested = true ∧ op'.execution.isSome = op.execution.isSome := by
  cases h with
  | answered _ _ _ hno | blocked _ _ _ hno | executing _ _ _ _ hno =>
    exact absurd (hcancel.symm.trans hno) (by simp)
  | cancelRequested _ hstate =>
    rw [Operation.requestCancel_eq hstate]
    exact ⟨rfl, by simp⟩
  | edited e e' _ _ he => exact ⟨hcancel, by simp [he]⟩
  | _ => exact ⟨hcancel, rfl⟩

theorem Turns.cancels (h : Turns lib kind candidates store op op') (hcancel : op.cancel_requested = true) :
    op'.cancel_requested = true ∧ op'.execution.isSome = op.execution.isSome := by
  induction h with
  | refl => exact ⟨hcancel, rfl⟩
  | tail _ hturn ih =>
    obtain ⟨hstill, hsame⟩ := hturn.cancels ih.1
    exact ⟨hstill, hsame.trans ih.2⟩

theorem CallOk.evolves (h : Evolves lib kind s s') (hcall : CallOk s.operations s.store call) :
    CallOk s'.operations s'.store call := by
  cases call with
  | activate id intent =>
    obtain ⟨⟨op, hop⟩, hkey, howns⟩ := hcall
    obtain ⟨op', hop', -⟩ := h.turned id op hop
    exact ⟨⟨op', hop'⟩, hkey, howns.later h.served.later⟩
  | answered => trivial
  | cancel id =>
    obtain ⟨op, hop, hcancel, hexecution⟩ := hcall
    obtain ⟨op', hop', hturns⟩ := h.turned id op hop
    obtain ⟨hcancel', hsame⟩ := hturns.cancels hcancel
    exact ⟨op', hop', hcancel', by simpa [hexecution] using hsame⟩

theorem Evolves.kept (h : Evolves lib kind s s') (hs : Kept s) : Kept s' := by
  have hbefore : ∀ id op', s'.operations.get? id = some op' →
      (∃ op, s.operations.get? id = some op ∧ Turns lib kind s.candidates.store s'.store op op') ∨
        s.operations.get? id = none ∧ Added s'.operations id op' := by
    intro id op' hop'
    cases hop : s.operations.get? id with
    | none => exact .inr ⟨rfl, h.added id op' hop' hop⟩
    | some op =>
      obtain ⟨op'', hop'', hturns⟩ := h.turned id op hop
      cases hop'.symm.trans hop''
      exact .inl ⟨op, rfl, hturns⟩
  constructor
  case sound => exact h.served.sound
  case keyed =>
    intro id op' hop'
    rcases hbefore id op' hop' with ⟨op, hop, hturns⟩ | ⟨-, ⟨_, _, _, _, rfl⟩, -⟩
    · exact (Turns.same hturns).id.trans (hs.keyed id op hop)
    · rfl
  case holds =>
    intro id op' hop'
    rcases hbefore id op' hop' with ⟨op, hop, hturns⟩ | ⟨hnone, ⟨_, _, _, _, rfl⟩, -⟩
    · exact Turns.holds hturns (h.served.holds id op hop)
    · exact newOperation_holds (h.served.unused id hnone)
  case unused =>
    intro id hnone
    cases hop : s.operations.get? id with
    | none => exact h.served.unused id hop
    | some op =>
      obtain ⟨op', hop', -⟩ := h.turned id op hop
      cases hnone.symm.trans hop'
  case calls =>
    intro call hcall
    rcases h.calls call hcall with hbefore | hnow
    · exact CallOk.evolves h (hs.calls call hbefore)
    · exact hnow
  case held => exact h.held

-- Steps that are saved

theorem State.begun_ok (h : s.begun = .ok u) : s.held = none := by
  simpa [State.begun, ensure_ok] using h

theorem State.opened_ok (h : s.opened lib ask = .ok op) :
    s.held = none ∧ s.operations.get? ask.operation_id = some op := by
  simp only [State.opened, bind_ok, Operations.load, need_ok, pure_ok] at h
  obtain ⟨_, _, _, hbegun, found, hfound, _, _, rfl⟩ := h
  exact ⟨State.begun_ok hbegun, hfound⟩

theorem State.continued_ok (h : s.continued id = .ok op) : s.held = none ∧ s.operations.get? id = some op := by
  simp only [State.continued, bind_ok, need_ok] at h
  obtain ⟨_, hbegun, hop⟩ := h
  exact ⟨State.begun_ok hbegun, hop⟩

theorem Evolves.unsaved (hs : Kept s) (h : Served s store') : Evolves lib kind s { s with store := store' } where
  served := h
  turned id op hop := ⟨op, hop, .refl⟩
  added id op hop hnone := by cases hnone.symm.trans hop
  calls call hcall := .inl hcall
  held := hs.held

theorem Evolves.put (hs : Kept s) (hnone : s.held = none) (hop : s.operations.get? id = some op)
    (h : Served s store') (hturns : Turns lib kind s.candidates.store store' op op') {calls : List Call}
    (hcalls : ∀ call ∈ calls, call ∈ s.calls ∨ CallOk (s.operations.put op'.id op') store' call) :
    Evolves lib kind s { s with
      operations := s.operations.put op'.id op', store := store', calls, commands, budgets } := by
  have hid : op'.id = id := (Turns.same hturns).id.trans (hs.keyed id op hop)
  constructor
  case served => exact h
  case turned =>
    intro id' other hother
    by_cases hsame : op'.id = id'
    · subst hsame
      rw [hid] at hother
      cases hother.symm.trans hop
      exact ⟨op', Dict.get?_put_self, hturns⟩
    · exact ⟨other, by simp [Dict.get?_put_of_ne hsame, hother], .refl⟩
  case added =>
    intro id' other hother hunknown
    have hne : op'.id ≠ id' := by
      rintro rfl
      rw [hid] at hunknown
      cases hunknown.symm.trans hop
    rw [Dict.get?_put_of_ne hne] at hother
    cases hunknown.symm.trans hother
  case calls => exact hcalls
  case held =>
    intro held hheld
    cases hnone.symm.trans hheld

variable {r : Except TaskError Operation}

theorem opened_triple (hs : Kept s) {f : Operation → Visiting Operation} {K : Operation → List String}
    (hr : ∀ op, r = .ok op → s.held = none ∧ s.operations.get? op.id = some op)
    (hkeys : ∀ op, ∀ key ∈ K op, key ∈ keysOf op.id)
    (hf : ∀ op, r = .ok op → Triple (f op) s.store (fun op' t => Left (K op) s.store op t ∧
      Turns lib kind s.candidates.store t op op') (Left (K op) s.store op)) :
    Triple (Visit.lift r >>= f) s.store (fun op' t => ∃ op, r = .ok op ∧ Served s t ∧
      Turns lib kind s.candidates.store t op op') (Served s) := by
  refine .lift_bind (.refl hs) fun op hop => ?_
  obtain ⟨hnone, hget⟩ := hr op hop
  refine (hf op hop).mono ?_ ?_
  · rintro op' t ⟨hleft, hturns⟩
    exact ⟨op, hop, .left hs hget hleft (hkeys op), hturns⟩
  · exact fun t hleft => .left hs hget hleft (hkeys op)

theorem saved_evolves (hs : Kept s) {x : Visiting Operation}
    (hr : ∀ op, r = .ok op → s.held = none ∧ s.operations.get? op.id = some op)
    (h : Triple x s.store (fun op' t => ∃ op, r = .ok op ∧ Served s t ∧
      Turns lib kind s.candidates.store t op op') (Served s)) : Evolves lib kind s (s.saved (x s.store)) := by
  unfold Triple at h
  rcases hx : x s.store with ⟨answer, t⟩
  rw [hx] at h
  cases answer with
  | error e => exact .unsaved hs h
  | ok op' =>
    obtain ⟨op, hop, hserved, hturns⟩ := h
    obtain ⟨hnone, hget⟩ := hr op hop
    exact .put hs hnone hget hserved hturns fun call hcall => .inl hcall

-- Queueing

structure Refreshed (lib : Library) (kind : Kind) (candidates : Candidates.Store) (store : Clocked)
    (operations operations' : Operations) : Prop where
  turned : ∀ id op, operations.get? id = some op →
    ∃ op', operations'.get? id = some op' ∧ Turns lib kind candidates store op op'
  unknown : ∀ id, operations.get? id = none → operations'.get? id = none

theorem refreshEach_triple (kind : Kind) (candidates : Candidates.Store) (h : store.Sound) (hnodup : (rest.map (·.id)).Nodup)
    (hrest : ∀ op ∈ rest, operations.get? op.id = some op ∧ Holds store op) :
    Triple (refreshEach lib w rest operations) store (fun operations' t =>
      Goes [] store t ∧ Refreshed lib kind candidates t operations operations') (Goes [] store) := by
  induction rest generalizing store operations with
  | nil => exact .pure ⟨.refl h, fun id op hop => ⟨op, hop, .refl⟩, fun _ hnone => hnone⟩
  | cons op rest ih =>
    simp only [List.map_cons, List.nodup_cons, List.mem_map, not_exists, not_and] at hnodup
    obtain ⟨hget, hop⟩ := hrest op (by simp)
    unfold refreshEach
    refine (refresh_triple kind candidates h hop).bind ?_
    rintro refreshed m ⟨hm, hturns, -⟩
    have hid : refreshed.id = op.id := (Turns.same hturns).id
    have hrest' : ∀ other ∈ rest, (operations.put refreshed.id refreshed).get? other.id = some other ∧
        Holds m other := by
      intro other hother
      obtain ⟨hget', hop'⟩ := hrest other (List.mem_cons_of_mem _ hother)
      have hne : refreshed.id ≠ other.id := fun heq => hnodup.1 other hother (heq.symm.trans hid)
      exact ⟨by rw [Dict.get?_put_of_ne hne, hget'], hop'.calm hm⟩
    refine (ih hm.sound hnodup.2 hrest').mono ?_ fun t ht => hm.trans ht
    rintro operations' t ⟨ht, hrefreshed⟩
    refine ⟨hm.trans ht, fun id other hother => ?_, fun id hnone => ?_⟩
    · by_cases hsame : refreshed.id = id
      · subst hsame
        rw [hid] at hother
        cases hother.symm.trans hget
        obtain ⟨last, hlast, hturns'⟩ := hrefreshed.turned refreshed.id refreshed Dict.get?_put_self
        exact ⟨last, hlast, (hturns.goes ht).trans hturns'⟩
      · exact hrefreshed.turned id other (by rw [Dict.get?_put_of_ne hsame, hother])
    · refine hrefreshed.unknown id ?_
      rw [Dict.get?_put_of_ne, hnone]
      rintro rfl
      rw [hid] at hnone
      cases hnone.symm.trans hget

theorem Operations.mem_ofTask (h : op ∈ operations.ofTask run_id task_id) :
    (∃ id, operations.get? id = some op) ∧ op.run_id = run_id ∧ op.task_id = task_id := by
  obtain ⟨hmem, htask⟩ := List.mem_filter.mp h
  exact ⟨Dict.mem_values.mp hmem, by simpa using htask⟩

theorem queue_triple (kind : Kind) (candidates : Candidates.Store) (h : store.Sound)
    (hkeyed : ∀ id op, operations.get? id = some op → op.id = id)
    (hholds : ∀ id op, operations.get? id = some op → Holds store op) :
    Triple (queue lib w run_id task_id principal operations) store (fun r t => Goes [] store t ∧
      ∃ refreshed assessment request, Refreshed lib kind candidates t operations refreshed ∧
        r.2 = newOperation w.identity run_id task_id assessment request ∧
        r.1 = refreshed.put w.identity r.2 ∧
        ∀ id other, refreshed.get? id = some other → other.run_id = run_id →
          other.task_id = task_id → other.state.live = false) (Goes [] store) := by
  unfold queue
  have hids : operations.values.map (·.id) = operations.keys := by
    rw [Dict.values, Dict.keys, List.map_map]
    refine List.map_congr_left fun entry hentry => ?_
    exact hkeyed entry.1 entry.2 (Dict.get?_eq_some.mpr hentry)
  have hnodup : (((operations.ofTask run_id task_id).filter (·.state = .reserved)).map (·.id)).Nodup := by
    refine List.Nodup.sublist (List.Sublist.map _ (List.filter_sublist.trans List.filter_sublist)) ?_
    rw [hids]
    exact operations.nodup
  refine (refreshEach_triple kind candidates h hnodup fun op hop => ?_).bind ?_
  · obtain ⟨⟨id, hget⟩, -⟩ := Operations.mem_ofTask (List.mem_filter.mp hop).1
    cases hkeyed id op hget
    exact ⟨hget, hholds _ _ hget⟩
  · rintro refreshed t ⟨ht, hrefreshed⟩
    refine .lift_bind ht fun _ halone => .lift_bind ht fun run _ => .lift_bind ht fun _ _ => ?_
    refine .lift_bind ht fun assessment _ => .lift_bind ht fun request _ => ?_
    refine .pure ⟨ht, refreshed, assessment, request, hrefreshed, rfl, rfl, ?_⟩
    intro id other hother hrun htask
    have halone := ensure_ok.mp halone
    simp only [Bool.not_eq_true', List.any_eq_false, Bool.not_eq_true] at halone
    refine halone other (List.mem_filter.mpr ⟨Dict.mem_values.mpr ⟨id, hother⟩, ?_⟩)
    simp [hrun, htask]

-- Steps

theorem Evolves.idle (hs : Kept s) (hoperations : s'.operations = s.operations)
    (hstore : s'.store = s.store) (hcalls : ∀ call ∈ s'.calls, call ∈ s.calls)
    (hheld : ∀ held, s'.held = some held → HeldOk s.operations held) : Evolves lib kind s s' where
  served := hstore ▸ .refl hs
  turned id op hop := ⟨op, hoperations ▸ hop, .refl⟩
  added id op hop hnone := by
    rw [hoperations] at hop
    cases hnone.symm.trans hop
  calls call hcall := .inl (hcalls call hcall)
  held held hheld' := hoperations ▸ hheld held hheld'

theorem Evolves.self (hs : Kept s) : Evolves lib kind s s := .idle hs rfl rfl (fun _ h => h) hs.held

theorem Kept.done (hs : Kept s) (call : Call) : Kept (s.done call) :=
  { hs with calls := fun other hother => hs.calls other (List.mem_of_mem_erase hother) }

theorem Evolves.of_done (h : Evolves lib kind (s.done call) s') : Evolves lib kind s s' :=
  { h with
    served := ⟨h.served.sound, h.served.later, h.served.holds, h.served.unused, h.served.asked⟩
    calls := fun other hother => (h.calls other hother).imp_left List.mem_of_mem_erase }

theorem orElse_evolves {r : Except TaskError State} (hs : Kept s)
    (h : ∀ t, r = .ok t → Evolves lib kind s t) : Evolves lib kind s (s.orElse r) := by
  cases r with
  | error e => exact .self hs
  | ok t => exact h t rfl

section
variable (hs : Kept s)
include hs

theorem opened_own (op : Operation) (h : s.opened lib ask = .ok op) :
    s.held = none ∧ s.operations.get? op.id = some op := by
  obtain ⟨hnone, hget⟩ := State.opened_ok h
  rw [hs.keyed _ _ hget]
  exact ⟨hnone, hget⟩

theorem continued_own (op : Operation) (h : s.continued id = .ok op) :
    s.held = none ∧ s.operations.get? op.id = some op := by
  obtain ⟨hnone, hget⟩ := State.continued_ok h
  rw [hs.keyed _ _ hget]
  exact ⟨hnone, hget⟩

theorem calm_triple {f : Operation → Visiting Operation}
    (hr : ∀ op, r = .ok op → s.held = none ∧ s.operations.get? op.id = some op)
    (hf : ∀ op, Holds s.store op → Triple (f op) s.store (fun op' t => Goes [] s.store t ∧
      Turns lib kind s.candidates.store t op op') (Goes [] s.store)) :
    Evolves lib kind s (s.saved ((Visit.lift r >>= f) s.store)) := by
  refine saved_evolves hs hr (opened_triple (K := fun _ => []) hs hr (by simp) fun op hop => ?_)
  have hholds := hs.holds _ _ (hr op hop).2
  refine (hf op hholds).mono ?_ fun t ht => .calm hholds ht
  rintro op' t ⟨ht, hturns⟩
  exact ⟨.calm hholds ht, hturns⟩

theorem enqueue_evolves (hnew : s.operations.get? w.identity = none) :
    Evolves lib kind s (s.queued key payload (s.enqueue lib ask task_id command_key w s.store)) := by
  have htriple : Triple (s.enqueue lib ask task_id command_key w) s.store (fun r t =>
      s.held = none ∧ Goes [] s.store t ∧ ∃ refreshed assessment request,
        Refreshed lib kind s.candidates.store t s.operations refreshed ∧
        r.2 = newOperation w.identity ask.run_id task_id assessment request ∧
        r.1 = refreshed.put w.identity r.2 ∧
        ∀ id other, refreshed.get? id = some other → other.run_id = ask.run_id →
          other.task_id = task_id → other.state.live = false) (Goes [] s.store) := by
    have hstays : Goes [] s.store s.store := .refl hs.sound
    refine .lift_bind hstays fun _ _ => .lift_bind hstays fun _ _ => .lift_bind hstays fun _ hbegun => ?_
    refine (queue_triple kind s.candidates.store hs.sound hs.keyed hs.holds).mono ?_ fun _ ht => ht
    exact fun r t hr => ⟨State.begun_ok hbegun, hr⟩
  unfold Triple at htriple
  rcases hx : s.enqueue lib ask task_id command_key w s.store with ⟨r, t⟩
  rw [hx] at htriple
  cases r with
  | error e => exact .unsaved hs (.calm hs htriple)
  | ok found =>
    obtain ⟨hnone, ht, refreshed, assessment, request, hrefreshed, hop, hput, halone⟩ := htriple
    obtain ⟨operations', op⟩ := found
    dsimp only at hop hput
    subst hop hput
    have hunknown : ∀ id op, s.operations.get? id = some op → w.identity ≠ id := by
      rintro id op hget rfl
      cases hnew.symm.trans hget
    constructor
    case served => exact .calm hs ht
    case turned =>
      intro id op hget
      obtain ⟨op', hop', hturns⟩ := hrefreshed.turned id op hget
      exact ⟨op', (Dict.get?_put_of_ne (hunknown id op hget)).trans hop', hturns⟩
    case added =>
      intro id op hget hnone'
      by_cases hid : w.identity = id
      · subst hid
        cases Dict.get?_put_self.symm.trans hget
        refine ⟨⟨_, _, _, _, rfl⟩, fun id' other hother hne => ?_⟩
        rw [State.queued, Dict.get?_put_of_ne hne.symm] at hother
        exact halone id' other hother
      · rw [State.queued, Dict.get?_put_of_ne hid, hrefreshed.unknown id hnone'] at hget
        cases hget
    case calls => exact fun call hcall => .inl hcall
    case held => exact fun held hheld => absurd (hnone.symm.trans hheld) (by simp)

theorem intendActivation_evolves {w : ActivateWorld} :
    Evolves lib kind s (s.intendedActivation ask.operation_id
      ((do intendActivation lib w s.operations (← Visit.lift (s.opened lib ask))) s.store)) := by
  have htriple : Triple (do intendActivation lib w s.operations (← Visit.lift (s.opened lib ask))) s.store
      (fun r t => s.held = none ∧ ∃ op, s.operations.get? ask.operation_id = some op ∧
        Goes [] s.store t ∧ Turns lib kind s.candidates.store t op r.1 ∧
        ∀ intent, r.2 = some intent → r.1.intent? = some intent) (Goes [] s.store) := by
    refine .lift_bind (.refl hs.sound) fun op hop => ?_
    obtain ⟨hnone, hget⟩ := State.opened_ok hop
    refine (intendActivation_triple kind s.candidates.store hs.sound (hs.holds _ _ hget)).mono ?_
      fun _ ht => ht
    exact fun r t hr => ⟨hnone, op, hget, hr⟩
  unfold Triple at htriple
  split at htriple
  case h_2 e t hx =>
    rw [hx]
    exact .unsaved hs (.calm hs htriple)
  case h_1 r t hx =>
    obtain ⟨op', intent⟩ := r
    obtain ⟨hnone, op, hget, ht, hturns, hintent⟩ := htriple
    rw [hx]
    have hholds := Turns.holds hturns ((hs.holds _ _ hget).calm ht)
    have hid : op'.id = ask.operation_id := (Turns.same hturns).id.trans (hs.keyed _ _ hget)
    refine .put hs hnone hget (.calm hs ht) hturns fun call hcall => ?_
    rcases List.mem_append.mp hcall with hnew | hold
    · refine .inr ?_
      cases intent with
      | none => simp at hnew
      | some intent =>
        simp only [Option.map_some, Option.toList_some, List.mem_singleton] at hnew
        subst hnew
        obtain ⟨hkey, howns⟩ := hholds.intent intent (hintent intent rfl)
        rw [hid] at hkey howns
        exact ⟨⟨op', hid ▸ Dict.get?_put_self⟩, hkey, howns⟩
    · exact .inl hold

theorem activation_served (hget : s.operations.get? id = some op)
    (howns : Owns s.store id k) (hkey : key = reviewerKey id ∨ key = activationKey id) :
    Triple (send lib moment key (.activate k) w) s.store (fun _ t => Served s t) (Served s) := by
  obtain rfl := hs.keyed id op hget
  have hserved : ∀ t, Left [key] s.store op t → Served s t := by
    intro t ht
    refine .left hs hget ht fun key' hkey' => ?_
    rw [List.mem_singleton.mp hkey']
    rcases hkey with rfl | rfl
    · exact reviewerKey_mem
    · exact activationKey_mem
  exact (sendActivation_triple hs.sound (hs.holds _ op hget) howns hkey).mono (fun _ => hserved) hserved

theorem answered_evolves {x : Visiting ActivationReceipt}
    (h : Served s (x s.store).2) : Evolves lib kind s (s.answered id intent (x s.store)) := by
  rcases hx : x s.store with ⟨r, t⟩
  rw [hx] at h
  have hunsaved : Evolves lib kind s { s with store := t } := .unsaved hs h
  cases r with
  | error e => exact hunsaved
  | ok answer =>
    refine { hunsaved with calls := fun call hcall => ?_ }
    rcases List.mem_cons.mp hcall with rfl | hold
    · exact .inr trivial
    · exact .inl hold

theorem requestCancel_evolves (hnone : s.held = none)
    (hget : s.operations.get? op.id = some op) : Evolves lib .cancel s (s.cancelling op) := by
  by_cases hstate : op.state = .cancelled
  · have hsame : op.requestCancel = op := if_pos hstate
    have hput : Evolves lib .cancel s { s with operations := s.operations.put op.id op } :=
      .put hs hnone hget (.refl hs) .refl fun call hcall => .inl hcall
    simpa [State.cancelling, hsame, hstate, State.calling] using hput
  · have hturn : Turn lib .cancel s.candidates.store s.store op op.requestCancel := .cancelRequested rfl hstate
    have hid := hturn.same.id
    have hput : Evolves lib .cancel s ({ s with
        operations := s.operations.put op.requestCancel.id op.requestCancel }.calling
          (if op.execution.isNone && op.state ≠ OperationState.cancelled then some (.cancel op.id)
            else none)) := by
      refine .put hs hnone hget (.refl hs) (.single hturn) fun call hcall => ?_
      rcases List.mem_append.mp hcall with hnew | hold
      · split at hnew
        case isTrue hidle =>
          simp only [Option.toList_some, List.mem_singleton] at hnew
          subst hnew
          simp only [Bool.and_eq_true, Option.isNone_iff_eq_none] at hidle
          refine .inr ⟨op.requestCancel, hid ▸ Dict.get?_put_self, ?_, ?_⟩
          · rw [Operation.requestCancel_eq hstate]
          · rw [Operation.requestCancel_eq hstate]
            simp [hidle.1]
        · simp at hnew
      · exact .inl hold
    rw [hid] at hput
    exact hput

end

theorem State.prepared_ok (h : s.prepared lib ask command_key source w = .ok s') :
    ∃ op op' commands budgets, s.opened lib ask = .ok op ∧
      s' = { s with operations := s.operations.put op'.id op', commands, budgets } ∧
      (op.execution.isSome = true ∧ op' = op ∧ budgets = s.budgets ∨
        op.execution = none ∧ ∃ ledger, budgets = some ledger ∧
          prepareIntent lib source w s.operations s.budgets ask.principal op = .ok (op', ledger)) := by
  simp only [State.prepared, bind_ok, Prod.exists, pure_ok] at h
  obtain ⟨_, _, op, hop, new, _, op', budgets, hintent, rfl⟩ := h
  refine ⟨op, op', _, budgets, hop, rfl, ?_⟩
  unfold State.intent at hintent
  split at hintent
  case isTrue hsome =>
    simp only [bind_ok, pair_ok] at hintent
    obtain ⟨_, _, rfl, rfl⟩ := hintent
    exact .inl ⟨hsome, rfl, rfl⟩
  case isFalse hnone =>
    simp only [bind_ok, pure_ok, Prod.exists, Prod.mk.injEq] at hintent
    obtain ⟨op'', ledger, hprepare, rfl, rfl⟩ := hintent
    exact .inr ⟨by simpa using hnone, ledger, rfl, hprepare⟩

theorem prepareIntent_turn (hexecution : op.execution = none)
    (h : prepareIntent lib source w operations budgets principal op = .ok (op', ledger)) :
    Turn lib .execute candidates store op op' := by
  obtain ⟨hstate, hcancel, intent, run, hreceipt, hkey, -, -, -, rfl⟩ := prepareIntent_ok h
  exact .executing intent rfl hstate hexecution hcancel hkey hreceipt

theorem prepareIntent_evolves (hs : Kept s) (h : s.prepared lib ask command_key source w = .ok s') :
    Evolves lib .execute s s' := by
  obtain ⟨op, op', commands, budgets, hop, rfl, hcases⟩ := State.prepared_ok h
  obtain ⟨hnone, hget⟩ := opened_own hs op hop
  refine .put hs hnone hget (.refl hs) ?_ fun call hcall => .inl hcall
  rcases hcases with ⟨-, rfl, -⟩ | ⟨hexecution, ledger, -, hprepare⟩
  · exact .refl
  · exact .single (prepareIntent_turn hexecution hprepare)

theorem State.entered_ok {guard : Guard} {held : Held} (h : s.entered lib ask source w guard = .ok held) :
    ∃ op, s.opened lib ask = .ok op ∧ op.execution = some held.execution ∧
      op.cancel_requested = false ∧ held.operation_id = op.id ∧ held.guard = guard := by
  simp only [State.entered, bind_ok, pure_ok, Prod.exists, enterGuard, Prod.mk.injEq] at h
  obtain ⟨op, hop, execution, _, ⟨_, _, found, hfound, _, hcancel, _, _, _, _, rfl, rfl⟩, rfl⟩ := h
  exact ⟨op, hop, checkExecution_ok hfound, ensureUncancelled_ok hcancel, rfl, rfl⟩

theorem finishCancel_opened (hs : Kept s) (hcall : CallOk s.operations s.store (.cancel id)) :
    Triple (do finishCancel lib w (← Visit.lift (s.continued id))) s.store
      (fun op' t => ∃ op, s.continued id = .ok op ∧ Served s t ∧
        Turns lib .cancel s.candidates.store t op op') (Served s) := by
  obtain ⟨op, hget, hcancel, hexecution⟩ := hcall
  refine opened_triple (K := fun op => [cancelKey op.id]) hs (continued_own hs) ?_ fun other hother => ?_
  · intro op key hkey
    rw [List.mem_singleton.mp hkey]
    exact cancelKey_mem
  · cases (State.continued_ok hother).2.symm.trans hget
    exact finishCancel_triple s.candidates.store hs.sound (hs.holds _ _ hget) hcancel hexecution

theorem step_evolves (hs : Kept s) (a : Action lib) (hdrawn : Drawn s a) :
    Evolves lib a.kind s (s.step lib a) := by
  induction a with
  | other command => exact .unsaved hs (.calm hs (command.send_goes hs.sound))
  | candidates action => exact .idle hs rfl rfl (fun _ h => h) hs.held
  | claim c =>
    refine orElse_evolves hs fun t ht => ?_
    obtain ⟨budgets, -, rfl⟩ := map_ok.mp ht
    exact .idle hs rfl rfl (fun _ h => h) hs.held
  | enqueue ask task_id command_key w =>
    unfold State.step
    split
    case isTrue => exact .self hs
    case isFalse =>
      refine enqueue_evolves hs ?_
      simpa [Drawn, Action.identity?, Dict.contains_eq_false] using hdrawn
  | get ask w =>
    refine calm_triple hs (opened_own hs) fun op hop => ?_
    exact (refresh_triple _ s.candidates.store hs.sound hop).mono (fun _ _ h => ⟨h.1, h.2.1⟩) fun _ h => h
  | advance ask w =>
    refine saved_evolves hs (opened_own hs) (opened_triple (K := fun op => [admitKey op.id]) hs
      (opened_own hs) ?_ ?_)
    · intro op key hkey
      rw [List.mem_singleton.mp hkey]
      exact admitKey_mem
    · intro op hop
      exact advance_triple _ s.candidates.store hs.sound (hs.holds _ _ (opened_own hs op hop).2)
  | intendActivation ask w => exact intendActivation_evolves hs
  | sendActivation id intent moment w =>
    unfold State.step
    split
    case isFalse => exact .self hs
    case isTrue hcall =>
      obtain ⟨⟨op, hget⟩, hkey, howns⟩ := hs.calls _ hcall
      refine .of_done (answered_evolves (hs.done (.activate id intent)) ?_)
      have hserved : Served s ((send lib moment intent.command_key
          (.activate intent.admission_id) w >>= fun r =>
            Visit.lift (activation intent.admission_id r)) s.store).2 := by
        refine (Triple.bind (activation_served hs hget howns (.inl hkey)) fun r t ht => ?_).left
          fun _ _ h => h
        exact .lift (fun _ _ => ht) ht
      exact { hserved with }
  | storeActivation id intent answer w =>
    unfold State.step
    split
    case isFalse => exact .self hs
    case isTrue hcall =>
      refine .of_done (calm_triple (hs.done _) (continued_own hs) fun op hop => ?_)
      exact storeActivation_triple _ s.candidates.store hs.sound hop
  | requestCancel ask =>
    refine orElse_evolves hs fun t ht => ?_
    obtain ⟨op, hop, rfl⟩ := map_ok.mp ht
    obtain ⟨hnone, hget⟩ := opened_own hs op hop
    exact requestCancel_evolves hs hnone hget
  | finishCancel id w =>
    unfold State.step
    split
    case isFalse => exact .self hs
    case isTrue hcall =>
      exact .of_done (saved_evolves (hs.done _) (continued_own (hs.done _))
        (finishCancel_opened (hs.done _) (hs.calls _ hcall)))
  | prepareWorkspace ask w =>
    refine calm_triple hs (opened_own hs) fun op hop => ?_
    exact prepareWorkspace_triple _ s.candidates.store hs.sound hop
  | prepareIntent ask command_key source w =>
    exact orElse_evolves hs fun t ht => prepareIntent_evolves hs ht
  | edit ask edit =>
    exact calm_triple hs (opened_own hs) fun op hop => runEdit_triple edit hs.sound
  | enter ask source w guard =>
    refine orElse_evolves hs fun t ht => ?_
    obtain ⟨held, hheld, rfl⟩ := map_ok.mp ht
    obtain ⟨op, hop, hexecution, hcancel, hid, -⟩ := State.entered_ok hheld
    refine .idle hs rfl rfl (fun _ h => h) fun held' heq => ?_
    cases heq
    exact ⟨op, hid ▸ (opened_own hs op hop).2, hexecution, hcancel⟩
  | activateExecution moment w =>
    unfold State.step
    split
    case h_1 => exact .self hs
    case h_2 execution hactivation =>
      -- The guard that is held is for this execution.
      obtain ⟨held, hheld, hguard⟩ := Option.bind_eq_some_iff.mp hactivation
      obtain ⟨op, hget, hexecution, -⟩ := hs.held held hheld
      have hsame : execution = held.execution := by
        cases hkind : held.guard <;> simp [hkind] at hguard
        exact hguard.symm
      obtain ⟨hkey, howns⟩ := (hs.holds _ _ hget).execution _ hexecution
      rw [hs.keyed _ _ hget] at hkey howns
      exact .unsaved hs ((activation_served hs hget (hsame ▸ howns) (.inr (hsame ▸ hkey))).left
        fun _ _ h => h)
  | leave =>
    refine .idle hs rfl rfl (fun _ h => h) fun held heq => ?_
    cases heq
  | drop call => exact .idle hs rfl rfl (fun _ h => List.mem_of_mem_erase h) hs.held
  | lost action ih => exact .unsaved hs (ih hdrawn).served

end Karajan.Tasks
