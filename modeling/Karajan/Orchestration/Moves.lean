import Karajan.Orchestration.Sound

/-!
# What a command does to a document

Every branch of a command keeps a sound document sound. What identifies an
attempt stays at its place, a cancelled run gets no attempt, and a task whose
work does not count stays that way unless a review completes it.
-/

namespace Karajan.Orchestration

open List Dict Check

variable {run run' run'' : Run} {a b x x' : Attempt} {revived draws : String → Prop}

-- Moves

def Extended (l l' : List Attempt) : Prop := ∀ (i : Nat) a, l[i]? = some a → ∃ a', l'[i]? = some a' ∧ a.Same a'

theorem Extended.trans (h : Extended l l') (h' : Extended l' l'') : Extended l l'' := by
  intro i a ha
  obtain ⟨a', ha', hs⟩ := h i a ha
  obtain ⟨a'', ha'', hs'⟩ := h' i a' ha'
  exact ⟨a'', ha'', hs.trans hs'⟩

theorem Extended.map (h : ∀ a ∈ l, a.Same (f a)) : Extended l (l.map f) := by
  intro i a ha
  exact ⟨f a, by simp [ha], h a (mem_of_getElem? ha)⟩

theorem Extended.append (l more : List Attempt) : Extended l (l ++ more) := by
  intro i a ha
  exact ⟨a, by rw [List.getElem?_append_left (List.getElem?_eq_some_iff.mp ha).1, ha], .refl a⟩

/-- An attempt that waits for its start has the fence of its manifest. -/
def Fenced (run : Run) : Prop :=
  run.cancelled = false → ∀ a ∈ run.attempts, a.state = .queued → run.exempt a ∨ a.fence = a.manifest.fence

/-- What a command does; `revived` are the tasks that a review completes, `fences` is what the
fences of new attempts rest on, and `draws` what the new attempts are known by. -/
structure Moves (revived : String → Prop) (fences : Prop) (draws : String → Prop) (run run' : Run) :
    Prop where
  sound : Sound run'
  tasks : run.tasks.Grows (Task.Moves revived) run'.tasks
  attempts : Extended run.attempts run'.attempts
  drawn : ∀ a' ∈ run'.attempts, (∃ a ∈ run.attempts, a'.id = a.id) ∨ draws a'.id
  cancelled : run.cancelled = true → run'.cancelled = true ∧ run'.attempts.length = run.attempts.length
  fenced : fences → Fenced run → Fenced run'

theorem Moves.trans (h : Moves revived fences draws run run') (h' : Moves revived fences draws run' run'') :
    Moves revived fences draws run run'' where
  sound := h'.sound
  tasks := h.tasks.trans (fun _ _ _ => .trans) h'.tasks
  attempts := h.attempts.trans h'.attempts
  drawn a'' ha := by
    rcases h'.drawn a'' ha with ⟨a', ha', hid⟩ | hdrawn
    · rw [hid]
      exact h.drawn a' ha'
    · exact .inr hdrawn
  cancelled hc := by
    obtain ⟨hc', hlen⟩ := h.cancelled hc
    obtain ⟨hc'', hlen'⟩ := h'.cancelled hc'
    exact ⟨hc'', hlen'.trans hlen⟩
  fenced hf hrun := h'.fenced hf (h.fenced hf hrun)

variable {t : Task}

theorem Task.Moves.mono (hr : ∀ id, revived id → revived' id) (h : t.Moves revived t') : t.Moves revived' t' :=
  ⟨h.id, h.subject, h.settled, fun hv => (h.voided hv).imp_right (hr t.id)⟩

theorem Moves.mono (h : Moves revived fences draws run run')
    (hr : ∀ id, revived id → revived' id) (hf : fences' → fences) (hd : ∀ id, draws id → draws' id) :
    Moves revived' fences' draws' run run' :=
  { h with
    tasks := h.tasks.mono fun _ _ => .mono hr
    drawn := fun a ha => (h.drawn a ha).imp_right (hd a.id)
    fenced := fun hfences => h.fenced (hf hfences) }

theorem drawn_map {l : List Attempt} (h : ∀ a ∈ l, a.Same (f a)) :
    ∀ a' ∈ l.map f, (∃ a ∈ l, a'.id = a.id) ∨ draws a'.id := by
  intro a' ha'
  obtain ⟨a, ha, rfl⟩ := mem_map.mp ha'
  exact .inl ⟨a, ha, (h a ha).id⟩

open Attempt (active stopped occupied observed)

theorem Moves.relabel (hs : Sound run)
    (hattempts : run'.attempts = run.attempts.map f) (hsame : ∀ a ∈ run.attempts, a.Same (f a))
    (htasks : TasksMove revived run run') (hrows : Rows run.outbox run'.outbox)
    (hcounters : run'.counters = run.counters) (hcancelled : run'.cancelled = run.cancelled)
    (hinvalidates : ∀ a ∈ run.attempts, run'.exempt a → run.exempt a ∨
      ∃ row ∈ run'.outbox, row.id = invalidateKey a.id)
    (hactive : run.cancelled = false → ∀ a ∈ run.attempts, (f a).active = true → run'.exempt a ∨
      a.active = true ∧ run'.stateOf a.task_id = run.stateOf a.task_id)
    (hoccupied : run.cancelled = false → ∀ a ∈ run.attempts, (f a).occupied = true →
      run'.exempt a ∨ a.occupied = true)
    (hqueued : run.cancelled = false → ∀ a ∈ run.attempts, (f a).state = .queued →
      run'.exempt a ∨ a.state = .queued ∧ (f a).fence = a.fence) : Moves revived fences draws run run' where
  sound := hs.relabel hattempts hsame htasks hrows hcounters (fun hc => .inl (hcancelled ▸ hc))
    hinvalidates fun hc => (hs.live (hcancelled ▸ hc)).relabel hattempts hsame
      (hactive (hcancelled ▸ hc)) (hoccupied (hcancelled ▸ hc))
  tasks := htasks.forth
  attempts := hattempts ▸ .map hsame
  drawn := hattempts ▸ drawn_map hsame
  cancelled hc := ⟨hcancelled.trans hc, by rw [hattempts, length_map]⟩
  fenced _ hfenced hc a ha hq := by
    rw [hcancelled] at hc
    rw [hattempts] at ha
    obtain ⟨a, hmem, rfl⟩ := mem_map.mp ha
    have hexempt : run'.exempt (f a) ↔ run'.exempt a := by
      unfold Run.exempt
      rw [(hsame a hmem).task_id]
    rw [hexempt, (hsame a hmem).manifest]
    rcases hqueued hc a hmem hq with he | ⟨hq', hfence⟩
    · exact .inl he
    · rw [hfence]
      rcases hfenced hc a hmem hq' with he | hf
      · rcases hactive hc a hmem (by simp [active, hq]) with he' | ⟨-, hstate⟩
        · exact .inl he'
        · exact .inl (hstate.trans he)
      · exact .inr hf

theorem Moves.aside (hs : Sound run) (hattempts : run'.attempts = run.attempts)
    (htasks : run'.tasks = run.tasks) (houtbox : run'.outbox = run.outbox)
    (hcounters : run'.counters = run.counters) (hcancelled : run'.cancelled = run.cancelled) :
    Moves revived fences draws run run' := by
  have hstate : ∀ id, run'.stateOf id = run.stateOf id := by
    intro id
    unfold Run.stateOf
    rw [htasks]
  refine .relabel (f := fun a => a) hs (by rw [hattempts, map_id']) (fun a _ => .refl a)
    (.of_eq htasks) (houtbox ▸ .refl _) hcounters hcancelled ?_ ?_ ?_ ?_
  · exact fun a _ he => .inl ((hstate a.task_id).symm.trans he)
  · exact fun _ a _ hact => .inr ⟨hact, hstate a.task_id⟩
  · exact fun _ a _ hocc => .inr hocc
  · exact fun _ a _ hq => .inr ⟨hq, rfl⟩

theorem Moves.refl (hs : Sound run) : Moves revived fences draws run run := .aside hs rfl rfl rfl rfl rfl

theorem block_moves (hs : Sound run) : Moves revived fences draws run (run.block codes) :=
  .aside hs rfl rfl rfl rfl rfl

-- Invalidation

theorem invalidate_moves (hs : Sound run) : Moves revived fences draws run (run.invalidate task_id code) := by
  have hstate : ∀ id, (run.invalidate task_id code).stateOf id =
      if id = task_id then (run.tasks.get? id).map fun _ => .invalidating else run.stateOf id :=
    fun id => stateOf_modify (f := (·.invalidate code)) rfl
  have hexempt : ∀ a ∈ run.attempts, a.task_id = task_id → (run.invalidate task_id code).exempt a := by
    intro a ha htask
    obtain ⟨t, ht⟩ := hs.known a ha
    unfold Run.exempt
    rw [hstate, if_pos htask, ht]
    rfl
  have hother : ∀ a : Attempt, a.task_id ≠ task_id →
      (run.invalidate task_id code).stateOf a.task_id = run.stateOf a.task_id := by
    intro a htask
    rw [hstate, if_neg htask]
  refine .relabel hs rfl (fun a _ => ?_) (.modify (f := (·.invalidate code)) rfl
    fun t _ => ⟨rfl, rfl, fun _ => rfl, fun _ => .inl rfl⟩)
    (.append fun row hrow => ?_) rfl rfl (fun a ha he => ?_) (fun _ a ha hact => ?_)
    (fun _ a ha hocc => ?_) (fun _ a ha hq => ?_)
  · split <;> exact ⟨rfl, rfl, rfl, rfl, rfl, rfl, rfl⟩
  · obtain ⟨a, -, rfl⟩ := mem_map.mp hrow
    simp
  · by_cases htask : a.task_id = task_id
    · refine .inr ⟨⟨invalidateKey a.id, .invalidate, .pending, a.id⟩, ?_, rfl⟩
      exact mem_append_right _ (mem_map.mpr ⟨a, by simpa [ha] using htask, rfl⟩)
    · exact .inl ((hother a htask).symm.trans he)
  · by_cases htask : a.task_id = task_id
    · exact .inl (hexempt a ha htask)
    · rw [if_neg htask] at hact
      exact .inr ⟨hact, hother a htask⟩
  · by_cases htask : a.task_id = task_id
    · exact .inl (hexempt a ha htask)
    · rw [if_neg htask] at hocc
      exact .inr hocc
  · by_cases htask : a.task_id = task_id
    · exact .inl (hexempt a ha htask)
    · rw [if_neg htask] at hq ⊢
      exact .inr ⟨hq, rfl⟩

theorem invalidates_moves (hs : Sound run) : Moves revived fences draws run (run.invalidates task_id code) := by
  have hm : Moves revived fences draws run (run.invalidate task_id code) := invalidate_moves hs
  exact hm.trans (.aside hm.sound rfl rfl rfl rfl rfl)

theorem Moves.foldl {l : List α} {f : Run → α → Run}
    (hf : ∀ run a, Sound run → Moves revived fences draws run (f run a)) (hs : Sound run) :
    Moves revived fences draws run (l.foldl f run) := by
  induction l generalizing run with
  | nil => exact .refl hs
  | cons a rest ih =>
    have hm := hf run a hs
    exact hm.trans (ih hm.sound)

variable {tasks : List Task}

theorem invalidateAll_moves (hs : Sound run) :
    Moves revived fences draws run { tasks.foldl (fun run task => run.invalidate task.id code) run with
      state := .invalidating
      reason_codes := [code] } := by
  have hm : Moves revived fences draws run (tasks.foldl (fun run task => run.invalidate task.id code) run) :=
    .foldl (fun _ _ => invalidate_moves) hs
  exact hm.trans (.aside hm.sound rfl rfl rfl rfl rfl)

theorem changeRecipe_moves (hs : Sound run) : Moves revived fences draws run (changeRecipe w run) := by
  unfold changeRecipe
  simp only
  split
  · split
    · exact block_moves hs
    · exact invalidateAll_moves hs
  · exact block_moves hs

-- Stopping

theorem stopped_same : a.Same (a.stopped w state) := by
  unfold stopped
  split <;> exact ⟨rfl, rfl, rfl, rfl, rfl, rfl, rfl⟩

theorem stopped_state (h : hasStopped w a = true) : (a.stopped w state).state = state := by
  unfold stopped
  unfold hasStopped at h
  cases hobserved : w.inspect a.id with
  | none => rfl
  | some observed =>
    simp only [hobserved, Option.isNone_some, Bool.false_or] at h
    simp [h]

theorem observeInvalidation_ok (h : (observeInvalidation w run task).result = .ok run') :
    ∃ outbox, Rows run.outbox outbox ∧ run' = { run with
      outbox
      attempts := run.attempts.map fun a => if a.task_id = task.id then a.stopped w .invalidated else a
      tasks := run.tasks.modify task.id fun t =>
        if (run.attempts.filter (·.task_id = task.id)).all (hasStopped w) then
          { t with state := .invalidated } else t } := by
  unfold observeInvalidation at h
  obtain ⟨outbox, houtbox, h⟩ := Trace.bind_ok.mp h
  cases h
  refine ⟨outbox, ?_, rfl⟩
  refine Trace.foldlM_keeps (I := fun l => Rows run.outbox l) ?_ houtbox (.refl _)
  intro l a l' _ hl hl'
  obtain ⟨-, -, hl'⟩ := Trace.bind_ok.mp hl'
  obtain ⟨-, -, hl'⟩ := Trace.bind_ok.mp hl'
  cases hl'
  exact hl.trans (.of_brief Rows.brief_settleFirst)

theorem observeInvalidation_moves (hs : Sound run) (htask : run.stateOf task.id = some .invalidating)
    (h : (observeInvalidation w run task).result = .ok run') : Moves revived fences draws run run' ∧
      ∀ id, id ≠ task.id → run'.stateOf id = run.stateOf id := by
  obtain ⟨outbox, hrows, rfl⟩ := observeInvalidation_ok h
  obtain ⟨t, ht, hinvalidating⟩ := Option.map_eq_some_iff.mp htask
  let f := fun t : Task => if (run.attempts.filter (·.task_id = task.id)).all (hasStopped w) then
    { t with state := .invalidated } else t
  let next : Run := { run with
    outbox
    attempts := run.attempts.map fun a => if a.task_id = task.id then a.stopped w .invalidated else a
    tasks := run.tasks.modify task.id f }
  have hstate : ∀ id, next.stateOf id =
      if id = task.id then (run.tasks.get? id).map fun t => (f t).state else run.stateOf id :=
    fun id => stateOf_modify (f := f) rfl
  have hothers : ∀ id, id ≠ task.id → next.stateOf id = run.stateOf id :=
    fun id hid => (hstate id).trans (if_neg hid)
  -- either every attempt of the task has stopped, or the task stays exempt
  have hown : ∀ a ∈ run.attempts, a.task_id = task.id →
      next.exempt a ∨ (a.stopped w .invalidated).state = .invalidated := by
    intro a ha hid
    by_cases hall : (run.attempts.filter (·.task_id = task.id)).all (hasStopped w) = true
    · exact .inr (stopped_state (all_eq_true.mp hall a (by simp [ha, hid])))
    · refine .inl ?_
      unfold Run.exempt
      rw [hstate, if_pos hid, hid, ht]
      simp [f, hall, hinvalidating]
  have hcases : ∀ a ∈ run.attempts, next.exempt a ∨
      (if a.task_id = task.id then a.stopped w .invalidated else a).state = .invalidated ∨
      (if a.task_id = task.id then a.stopped w .invalidated else a) = a ∧ a.task_id ≠ task.id := by
    intro a ha
    by_cases hid : a.task_id = task.id
    · rw [if_pos hid]
      exact (hown a ha hid).imp_right .inl
    · rw [if_neg hid]
      exact .inr (.inr ⟨rfl, hid⟩)
  refine ⟨.relabel hs rfl (fun a _ => ?_) (.modify (f := f) rfl fun u hu => ?_) hrows rfl rfl
    (fun a ha he => ?_) (fun _ a ha hact => ?_) (fun _ a ha hocc => ?_) (fun _ a ha hq => ?_), hothers⟩
  · split
    · exact stopped_same
    · exact .refl a
  · rw [ht] at hu
    cases hu
    unfold f
    split
    · exact ⟨rfl, rfl, fun _ => rfl, fun _ => .inl rfl⟩
    · exact .refl t
  · by_cases hid : a.task_id = task.id
    · exact .inl (by unfold Run.exempt; rw [hid, htask])
    · exact .inl ((hothers _ hid).symm.trans he)
  · rcases hcases a ha with he | hstopped | ⟨heq, hid⟩
    · exact .inl he
    · simp [active, hstopped] at hact
    · exact .inr ⟨heq ▸ hact, hothers _ hid⟩
  · rcases hcases a ha with he | hstopped | ⟨heq, hid⟩
    · exact .inl he
    · simp [occupied, hstopped] at hocc
    · exact .inr (heq ▸ hocc)
  · rcases hcases a ha with he | hstopped | ⟨heq, hid⟩
    · exact .inl he
    · simp [hstopped] at hq
    · rw [heq] at hq ⊢
      exact .inr ⟨hq, rfl⟩

section
variable (hs : Sound run) (hids : (tasks.map (·.id)).Nodup)
  (htasks : ∀ t ∈ tasks, run.stateOf t.id = some .invalidating)
include hs hids htasks

theorem observeInvalidation_loop (h : (tasks.foldlM (observeInvalidation w) run).result = .ok run') : Moves revived fences draws run run' := by
  induction tasks generalizing run with
  | nil => cases h; exact .refl hs
  | cons task rest ih =>
    obtain ⟨next, hnext, hrest⟩ := Trace.bind_ok.mp h
    obtain ⟨hm, hothers⟩ := observeInvalidation_moves hs (htasks task mem_cons_self) hnext
    rw [map_cons, nodup_cons] at hids
    refine hm.trans (ih hm.sound hids.2 (fun t ht => ?_) hrest)
    rw [hothers t.id fun heq => hids.1 (heq ▸ mem_map_of_mem ht)]
    exact htasks t (mem_cons_of_mem _ ht)

theorem observeInvalidations_moves (h : (observeInvalidations w run tasks).result = .ok run') : Moves revived fences draws run run' := by
  unfold observeInvalidations at h
  obtain ⟨stopped, hloop, h⟩ := Trace.bind_ok.mp h
  have hm : Moves revived fences draws run stopped := observeInvalidation_loop hs hids htasks hloop
  cases h
  exact hm.trans (.aside hm.sound rfl rfl rfl rfl rfl)

end

-- Cancelled runs

theorem replace_attempts : (run.replace x').attempts =
    run.attempts.map fun a => if a.id = x'.id then x' else a := rfl

theorem cancelled_same : a.Same (a.cancelled w) := by
  unfold Attempt.cancelled
  split
  · split
    · exact ⟨rfl, rfl, rfl, rfl, rfl, rfl, rfl⟩
    · exact stopped_same
  · exact stopped_same

theorem receiveCancelled_eq (L : Library) (w : World) (run : Run) (a : Attempt) : ∃ inbox, run.receiveCancelled L w a = { run with inbox } := by
  unfold Run.receiveCancelled Run.receive
  split
  · exact ⟨run.inbox, rfl⟩
  · simp only
    split
    · exact ⟨run.inbox, rfl⟩
    · exact ⟨_, rfl⟩

theorem cancelAttempt_ok (h : (cancelAttempt L w run a).result = .ok run') :
    ∃ outbox inbox, Rows run.outbox outbox ∧ run' = { run.replace (a.cancelled w) with
      outbox
      inbox
      tasks := run.tasks.modify a.task_id Task.cancel } := by
  simp only [cancelAttempt] at h
  obtain ⟨row, -, h⟩ := Trace.bind_ok.mp h
  obtain ⟨-, -, h⟩ := Trace.bind_ok.mp h
  obtain ⟨-, -, h⟩ := Trace.bind_ok.mp h
  obtain ⟨inbox, hreceived⟩ := receiveCancelled_eq L w (run.replace (a.cancelled w)) a
  rw [hreceived] at h
  cases h
  refine ⟨_, inbox, ?_, rfl⟩
  split
  · exact .refl _
  · exact .of_brief Rows.brief_settleFirst

theorem cancelAttempt_moves (hs : Sound run) (hc : run.cancelled = true)
    (hsame : ∀ b ∈ run.attempts, b.id = a.id → b.Same a)
    (h : (cancelAttempt L w run a).result = .ok run') : Moves revived fences draws run run' := by
  obtain ⟨outbox, inbox, hrows, rfl⟩ := cancelAttempt_ok h
  have hnot : run.cancelled ≠ false := by simp [hc]
  refine .relabel hs replace_attempts (fun b hb => ?_)
    (.modify (f := Task.cancel) rfl fun t _ => ⟨rfl, rfl, fun _ => rfl, fun _ => .inl rfl⟩)
    hrows rfl rfl (fun b hb he => .inl ?_) (absurd · hnot) (absurd · hnot) (absurd · hnot)
  · split
    case isTrue hid => exact (hsame b hb (hid.trans cancelled_same.id)).trans cancelled_same
    · exact .refl b
  · have hstate := he.symm.trans (stateOf_modify (f := Task.cancel) rfl)
    split at hstate
    · obtain ⟨t, -, ht⟩ := Option.map_eq_some_iff.mp hstate.symm
      cases ht
    · exact hstate.symm

theorem Moves.same_as (h : Moves revived fences draws run run') (hs : Sound run) (hc : run.cancelled = true)
    (ha : a ∈ run.attempts) : ∀ b ∈ run'.attempts, b.id = a.id → b.Same a := by
  intro b hb hid
  obtain ⟨-, hlen⟩ := h.cancelled hc
  obtain ⟨i, hi⟩ := getElem?_of_mem hb
  have hlt : i < run.attempts.length := hlen ▸ (List.getElem?_eq_some_iff.mp hi).1
  obtain ⟨b', hb', hsame⟩ := h.attempts i run.attempts[i] (getElem?_eq_getElem hlt)
  rw [hi] at hb'
  cases hb'
  have horiginal : run.attempts[i] = a := hs.same_id (getElem_mem hlt) ha (hsame.id.symm.trans hid)
  exact horiginal ▸ hsame.symm

theorem cancelObserve_moves (hs : Sound run) (hc : run.cancelled = true)
    (h : (cancelObserve L w run).result = .ok run') : Moves revived fences draws run run' := by
  unfold cancelObserve at h
  obtain ⟨stopped, hloop, h⟩ := Trace.bind_ok.mp h
  have hm : Moves revived fences draws run stopped := by
    refine Trace.foldlM_keeps (I := fun acc => Moves revived fences draws run acc) ?_ hloop (.refl hs)
    intro acc a acc' ha hacc hstep
    obtain ⟨hc', hlen⟩ := hacc.cancelled hc
    exact hacc.trans (cancelAttempt_moves hacc.sound hc' (hacc.same_as hs hc ha) hstep)
  cases h
  exact hm.trans (.aside hm.sound rfl rfl rfl rfl rfl)

-- Control

theorem cancel_moves (hs : Sound run) (hc : run.cancelled = false) :
    Moves revived fences draws run (run.control L command_key .cancel) := by
  have heq : run.control L command_key .cancel = { run with
      cancelled := true
      paused := false
      state := .cancelling
      attempts := run.attempts.map fun a => { a with fence := a.fence + 1 }
      outbox := run.outbox ++ run.attempts.map (cancelRow L command_key) } := by
    simp [Run.control, hc]
  rw [heq]
  have hsame : ∀ a ∈ run.attempts, a.Same { a with fence := a.fence + 1 } :=
    fun a _ => ⟨rfl, rfl, rfl, rfl, rfl, rfl, rfl⟩
  have htasks : TasksMove revived run { run with
      cancelled := true
      paused := false
      state := .cancelling
      attempts := run.attempts.map fun a => { a with fence := a.fence + 1 }
      outbox := run.outbox ++ run.attempts.map (cancelRow L command_key) } := .of_eq rfl
  refine ⟨hs.relabel rfl hsame htasks (.append fun row hrow => ?_)
    rfl (fun _ => .inr fun a ha => ?_) (fun a ha he => .inl he) fun h => by simp at h,
    .refl .refl _, .map hsame, drawn_map hsame, fun h => by simp [hc] at h, fun _ _ h => by simp at h⟩
  · obtain ⟨a, -, rfl⟩ := mem_map.mp hrow
    simp [cancelRow]
  · exact ⟨cancelRow L command_key a, mem_append_right _ (mem_map_of_mem ha), rfl, rfl⟩

theorem control_moves (hs : Sound run) : Moves revived fences draws run (run.control L command_key action) := by
  cases action with
  | pause =>
    simp only [Run.control]
    split
    · exact .refl hs
    · exact .aside hs rfl rfl rfl rfl rfl
  | resume =>
    simp only [Run.control]
    split
    · exact .aside hs rfl rfl rfl rfl rfl
    · exact .refl hs
  | cancel =>
    cases hc : run.cancelled with
    | false => exact cancel_moves hs hc
    | true =>
      have heq : run.control L command_key .cancel = run := by simp [Run.control, hc]
      rw [heq]
      exact .refl hs

-- What comes before the work

theorem mem_ordered (hs : Sound run) (ht : t ∈ run.ordered) : run.tasks.get? t.id = some t := by
  have hmem : t ∈ run.tasks.values := (perm_insertionSort _ _).mem_iff.mp ht
  obtain ⟨id, hget⟩ := Dict.mem_values.mp hmem
  rw [hs.keyed id t hget, hget]

theorem stateOf_ordered (hs : Sound run) (ht : t ∈ run.ordered) : run.stateOf t.id = some t.state := by
  simp [Run.stateOf, mem_ordered hs ht]

theorem ordered_ids (hs : Sound run) : (run.ordered.map (·.id)).Nodup := by
  have hperm : (run.ordered.map (·.id)).Perm (run.tasks.values.map (·.id)) :=
    (perm_insertionSort _ _).map _
  refine hperm.nodup_iff.mpr ?_
  have hkeys : run.tasks.values.map (·.id) = run.tasks.entries.map Prod.fst := by
    rw [values, map_map]
    refine map_congr_left fun entry hentry => ?_
    exact hs.keyed entry.1 entry.2 (get?_eq_some.mpr hentry)
  rw [hkeys]
  exact run.tasks.nodup

theorem observed_state : (a.observed w).state = a.state := by
  unfold observed
  split <;> rfl

theorem observed_fence : (a.observed w).fence = a.fence := by
  unfold observed
  split <;> rfl

theorem observed_same : a.Same (a.observed w) := by
  unfold observed
  split <;> exact ⟨rfl, rfl, rfl, rfl, rfl, rfl, rfl⟩

theorem observePaused_moves (hs : Sound run) : Moves revived fences draws run (observePaused w run) := by
  refine .relabel hs rfl (fun a _ => observed_same) (.of_eq rfl) (.refl _) rfl rfl (fun a _ he => .inl he)
    (fun _ a _ hact => .inr ⟨?_, rfl⟩) (fun _ a _ hocc => .inr ?_)
    (fun _ a _ hq => .inr ⟨observed_state.symm.trans hq, observed_fence⟩)
  · simpa only [active, observed_state] using hact
  · simpa only [occupied, observed_state] using hocc

open TaskState (live voided settled)

theorem Moves.task {f : Task → Task} (hs : Sound run) (hget : run.tasks.get? task_id = some t)
    (hm : t.Moves revived (f t)) (hlive : t.state.live = false) (hlive' : (f t).state.live = false)
    (hattempts : run'.attempts = run.attempts) (htasks : run'.tasks = run.tasks.modify task_id f)
    (houtbox : run'.outbox = run.outbox) (hcounters : run'.counters = run.counters)
    (hcancelled : run'.cancelled = run.cancelled) : Moves revived fences draws run run' := by
  have hstate : ∀ id, run'.stateOf id = if id = task_id then some (f t).state else run.stateOf id := by
    intro id
    rw [stateOf_modify htasks]
    split
    case isTrue hid => rw [hid, hget]; rfl
    · rfl
  refine .relabel (f := fun a => a) hs (by rw [hattempts, map_id']) (fun a _ => .refl a)
    (.modify htasks fun u hu => ?_) (houtbox ▸ .refl _) hcounters hcancelled (fun a ha he => .inl ?_)
    (fun hc a ha hact => .inr ⟨hact, ?_⟩) (fun _ a _ hocc => .inr hocc) (fun _ a _ hq => .inr ⟨hq, rfl⟩)
  · rw [hget] at hu
    cases hu
    exact hm
  · unfold Run.exempt at he
    rw [hstate] at he
    split at he
    · simp [Option.some.inj he, live] at hlive'
    · exact he
  · rw [hstate]
    refine if_neg fun hid => ?_
    obtain ⟨state, hsome, hstatelive⟩ := (hs.live hc).placed a ha hact
    rw [hid] at hsome
    simp only [Run.stateOf, hget, Option.map_some, Option.some.injEq] at hsome
    simp [hsome, hstatelive] at hlive

theorem ungated_moves {task : Task} (hs : Sound run) (h : ungated w run = some task) :
    Moves revived fences draws run
      ((run.modifyTask task.id ({ · with state := .blocked })).block (w.gate task).reasons) := by
  have hmem := mem_ordered hs (mem_of_find?_eq_some h)
  have hcompleted : task.state = .completed := by
    have hfound := find?_some h
    simp only [Bool.and_eq_true, decide_eq_true_eq] at hfound
    exact hfound.1.1
  refine .task (f := ({ · with state := .blocked })) hs hmem ⟨rfl, rfl, fun _ => rfl, fun hv => ?_⟩ ?_ rfl
    rfl rfl rfl rfl rfl
  · simp [hcompleted, voided] at hv
  · simp [hcompleted, live]

-- New attempts

theorem Moves.snoc (hs : Sound run) (hattempts : run'.attempts = run.attempts ++ [a₀])
    (houtbox : run'.outbox = run.outbox ++ [startRow a₀]) (hfresh : ∀ a ∈ run.attempts, a.id ≠ a₀.id)
    (hbound : a₀.Bound) (hqueued : a₀.state = .queued) (hadds : Adds run a₀ run') (hdraws : draws a₀.id)
    (hcancelled : run.cancelled = false) (hcancelled' : run'.cancelled = false)
    (htasks : run.tasks.Grows (Task.Moves revived) run'.tasks)
    (hkeyed : Keyed run'.tasks) (hsubjects : Subjects run'.tasks)
    (hown : ∃ state, run'.stateOf a₀.task_id = some state ∧ state.live = true ∧ state ≠ .invalidating)
    (hothers : ∀ id, id ≠ a₀.task_id → run'.stateOf id = run.stateOf id)
    (hfree : ∀ a ∈ run.attempts, a.task_id = a₀.task_id → a.active = false)
    (hfence : fences → a₀.fence = a₀.manifest.fence) : Moves revived fences draws run run' where
  sound := hs.snoc hattempts houtbox hfresh hbound hqueued hadds hcancelled hcancelled' hkeyed
    hsubjects hown hothers hfree
  tasks := htasks
  attempts := hattempts ▸ .append _ _
  drawn a ha := by
    rw [hattempts] at ha
    rcases mem_append.mp ha with ha | ha
    · exact .inl ⟨a, ha, rfl⟩
    · rw [mem_singleton.mp ha]
      exact .inr hdraws
  cancelled hc := by simp [hcancelled] at hc
  fenced hf hfenced _ a ha hq := by
    rw [hattempts] at ha
    rcases mem_append.mp ha with ha | ha
    · have hne : a.task_id ≠ a₀.task_id := by
        intro htask
        have hinactive := hfree a ha htask
        simp [active, hq] at hinactive
      refine (hfenced hcancelled a ha hq).imp_left fun he => ?_
      exact (hothers _ hne).trans he
    · rw [mem_singleton.mp ha]
      exact .inr (hfence hf)

theorem newAttempt_bound : (newAttempt L w fixture task_id binding counters).Bound :=
  ⟨rfl, rfl, rfl, rfl, rfl, rfl⟩

theorem adoptPlan_ok (h : adoptPlan w run binding = .ok run') : ∃ workers revision, run' = { run with
    execution_worker_tasks := workers
    execution_plan_revision := revision } := by
  unfold adoptPlan at h
  split at h
  · cases h; exact ⟨_, _, rfl⟩
  · obtain ⟨plan, -, h⟩ := bind_ok.mp h
    cases h
    exact ⟨_, _, rfl⟩

theorem Sound.counters (hs : Sound run) (w : World) (binding : Material) :
    let c := run.counters.getD (newCounters w binding)
    c.total_attempts = run.attempts.length ∧ (∀ root_id n, c.roots.get? root_id = some n →
      n ≤ c.max_infrastructure_retries_per_root_task) ∧ ∀ c', run.counters = some c' → c = c' := by
  have hcounted := hs.counted
  unfold Run.Counted at hcounted
  cases hc : run.counters with
  | none =>
    rw [hc] at hcounted
    simp [newCounters, hcounted]
  | some c =>
    rw [hc] at hcounted
    exact ⟨hcounted.1, hcounted.2.2, fun c' heq => Option.some.inj heq⟩

theorem Run.ready_settled (h : run.ready task_id = true) :
    ∃ t, run.tasks.get? task_id = some t ∧ t.state.settled = true := by
  unfold Run.ready at h
  split at h
  case h_1 t ht =>
    refine ⟨t, ht, ?_⟩
    simp only [Bool.or_eq_true, decide_eq_true_eq] at h
    rcases h with h | h <;> simp [h, settled]
  · cases h

theorem refusal_none (h : refusal w run task_id profile_ref binding = none) :
    binding.task.depends_on.all run.ready = true := by
  unfold refusal at h
  split at h
  · cases h
  · split at h
    · cases h
    · split at h
      · cases h
      case isFalse hready => simpa using hready

theorem reviewSubject_ok (hs : Sound run) (hready : binding.task.depends_on.all run.ready = true)
    (h : reviewSubject run binding = .ok subject) : ∀ t, subject = some t →
      run.tasks.get? t.id = some t ∧ t.state.settled = true := by
  rintro t rfl
  unfold reviewSubject at h
  split at h
  case h_1 dependency _ hdeps =>
    obtain ⟨t', hget, heq⟩ := map_ok.mp h
    cases heq
    have hget := need_ok.mp hget
    rw [hdeps] at hready
    obtain ⟨u, hu, hsettled⟩ := Run.ready_settled (by simpa using hready)
    rw [hget] at hu
    cases hu
    exact ⟨by rw [hs.keyed dependency t hget, hget], hsettled⟩
  · cases h
  · cases h

theorem writes_append (hattempts : run'.attempts = run.attempts ++ [a₀]) :
    run'.writes task_id ≤ run.writes task_id + 1 := by
  unfold Run.writes
  rw [hattempts, countP_append]
  exact Nat.add_le_add_left countP_le_length _

variable {c : Counters}

theorem Counters.below (h : c.exhausted = false) : c.total_attempts + 1 ≤ c.max_total_attempts := by
  have hlt : c.total_attempts < c.max_total_attempts := by simpa [exhausted] using h
  exact hlt

theorem queued_adds (hattempts : run'.attempts = run.attempts ++ [a₀])
    (hcounters : run'.counters = some (c.countRoot a₀.root_task_id)) (hlimit : c.exhausted = false)
    (htotal : c.total_attempts = run.attempts.length)
    (hroots : ∀ root_id n, c.roots.get? root_id = some n → n ≤ c.max_infrastructure_retries_per_root_task)
    (hsame : ∀ c', run.counters = some c' → c = c')
    (hfree : ∀ a ∈ run.attempts, a.task_id ≠ a₀.task_id) : Adds run a₀ run' := by
  have hget : ∀ root_id, (c.countRoot a₀.root_task_id).roots.get? root_id =
      if a₀.root_task_id = root_id ∧ c.roots.get? a₀.root_task_id = none then some 0
      else c.roots.get? root_id := fun root_id => get?_putNew
  refine ⟨?_, fun a ha htask => absurd htask (hfree a ha), fun c' root_id n hc hn => ?_, ?_⟩
  · unfold Run.Counted
    rw [hcounters]
    refine ⟨by simp [hattempts, Counters.countRoot, htotal], Counters.below hlimit, fun root_id n hn => ?_⟩
    rw [hget] at hn
    split at hn
    · cases hn; exact Nat.zero_le _
    · exact hroots root_id n hn
  · rw [← hsame c' hc] at hn
    refine ⟨_, n, hcounters, ?_, le_rfl⟩
    rw [hget, if_neg]
    · exact hn
    · rintro ⟨rfl, hnone⟩
      simp [hn] at hnone
  · have hnone : run.writes a₀.task_id = 0 := by
      refine countP_eq_zero.mpr fun a ha => ?_
      simp [hfree a ha]
    have hwrites : run'.writes a₀.task_id ≤ 0 + 1 := hnone ▸ writes_append hattempts
    cases hroot : c.roots.get? a₀.root_task_id with
    | none => exact ⟨_, 0, hcounters, by rw [hget, if_pos ⟨rfl, hroot⟩], hwrites⟩
    | some n =>
      refine ⟨_, n, hcounters, ?_, Nat.le_trans hwrites (by omega)⟩
      rw [hget, if_neg fun h => by simp [hroot] at h, hroot]

theorem queue_moves (hs : Sound run) (hfresh : ∀ a ∈ run.attempts, a.id ≠ w.attempt_id)
    (hdraws : draws w.attempt_id) (hrefusal : refusal w run task_id profile_ref binding = none)
    (h : queue L w fixture run task_id binding = .ok run') : Moves revived fences draws run run' := by
  simp only [queue, bind_ok, ensure_ok, need_ok, pure_ok] at h
  obtain ⟨-, hactive, -, hnew, adopted, hadopted, -, hlimit, -, -, -, -, -, -, policy, -, subject,
    hsubject, rfl⟩ := h
  obtain ⟨workers, revision, rfl⟩ := adoptPlan_ok hadopted
  have hcancelled : run.cancelled = false := by
    simp only [Bool.and_eq_true, Bool.not_eq_true'] at hactive
    exact hactive.2
  have hnone : run.tasks.get? task_id = none := by simpa [Dict.contains] using hnew
  obtain ⟨htotal, hroots, hsame⟩ := hs.counters w binding
  have hreviewed := reviewSubject_ok hs (refusal_none hrefusal) hsubject
  have hget : ∀ id, (run.tasks.put task_id (newTask w fixture task_id binding policy subject)).get? id =
      if task_id = id then some (newTask w fixture task_id binding policy subject)
      else run.tasks.get? id := fun id => get?_put
  have hfree : ∀ a ∈ run.attempts, a.task_id ≠ task_id := by
    intro a ha htask
    obtain ⟨t, ht⟩ := hs.known a ha
    rw [htask, hnone] at ht
    cases ht
  refine .snoc hs rfl rfl hfresh newAttempt_bound rfl
    (queued_adds rfl rfl (by simpa using hlimit) htotal hroots hsame hfree) hdraws hcancelled hcancelled
    (.put_new .refl hnone) (fun id t ht => ?_) (fun id t subject_id ht hsub => ?_) ⟨.queued, ?_, rfl, by decide⟩
    (fun id hid => ?_) (fun a ha htask => ?_) fun _ => rfl
  · rw [hget] at ht
    split at ht
    case isTrue hid => cases ht; exact hid
    · exact hs.keyed id t ht
  · have hold : ∃ t, run.tasks.get? subject_id = some t ∧ t.state.settled = true := by
      rw [hget] at ht
      split at ht
      · cases ht
        obtain ⟨t, ht, rfl⟩ := Option.map_eq_some_iff.mp hsub
        exact ⟨t, hreviewed t ht⟩
      · exact hs.subjects id t subject_id ht hsub
    obtain ⟨t, hsubject, hsettled⟩ := hold
    have hne : task_id ≠ subject_id := by
      intro heq
      simp [← heq, hnone] at hsubject
    exact ⟨t, by rw [hget, if_neg hne, hsubject], hsettled⟩
  · unfold Run.stateOf
    rw [hget]
    exact if_pos rfl ▸ rfl
  · have hne : task_id ≠ id := fun heq => hid heq.symm
    unfold Run.stateOf
    rw [hget, if_neg hne]
  · exact absurd htask (hfree a ha)

theorem retryReady_ok (h : retryReady w run task_id = .ok r) :
    run.cancelled = false ∧ (∃ task, run.tasks.get? task_id = some task ∧ task.state = .failed) ∧
      r.source ∈ run.attempts ∧ r.source.task_id = task_id ∧ run.counters = some r.counters ∧
      r.counters.roots.get? r.source.root_task_id = some r.retries ∧
      r.retries < r.counters.max_infrastructure_retries_per_root_task ∧ r.counters.exhausted = false := by
  simp only [retryReady, bind_ok, ensure_ok, need_ok] at h
  obtain ⟨-, hactive, task, htask, source, hsource, physical, -, -, -, fixture, -, h⟩ := h
  split at h
  · cases h
  · simp only [bind_ok, ensure_ok, need_ok, pure_ok] at h
    obtain ⟨-, -, counters, hcounters, retries, hretries, -, hroot, -, hlimit, -, -, rfl⟩ := h
    simp only [Bool.and_eq_true, Bool.not_eq_true'] at hactive
    simp only [Option.filter_eq_some_iff, decide_eq_true_eq] at htask
    refine ⟨hactive.2, ⟨task, htask⟩, ?_, ?_, hcounters, hretries, by simpa using hroot, by simpa using hlimit⟩
    · exact mem_reverse.mp (mem_of_find?_eq_some hsource)
    · simpa using find?_some hsource

theorem fence_moves (hs : Sound run) (hx : x ∈ run.attempts) (hidle : run.cancelled = false → x.active = false) :
    Moves revived fences draws run (run.modifyAttempt x.id fun a => { a with fence := a.fence + 1 }) := by
  have hsame : ∀ a : Attempt, (if a.id = x.id then { a with fence := a.fence + 1 } else a).state = a.state := by
    intro a
    split <;> rfl
  refine .relabel hs rfl (fun a _ => ?_) (.of_eq rfl) (.refl _) rfl rfl (fun a _ he => .inl he)
    (fun _ a _ hact => .inr ⟨?_, rfl⟩) (fun _ a _ hocc => .inr ?_) (fun hc a ha hq => .inr ?_)
  · split <;> exact ⟨rfl, rfl, rfl, rfl, rfl, rfl, rfl⟩
  · simpa only [active, hsame] using hact
  · simpa only [occupied, hsame] using hocc
  · have hq' : a.state = .queued := (hsame a).symm.trans hq
    have hne : a.id ≠ x.id := by
      intro hid
      have hinactive := hidle hc
      rw [← hs.same_id ha hx hid] at hinactive
      simp [active, hq'] at hinactive
    exact ⟨hq', by rw [if_neg hne]⟩

theorem retried_adds (hs : Sound run) (hsource : source ∈ run.attempts) (htask : a₀.task_id = source.task_id)
    (hroot : a₀.root_task_id = source.root_task_id) (hattempts : run'.attempts = run.attempts ++ [a₀])
    (hc : run.counters = some c) (hn : c.roots.get? source.root_task_id = some n)
    (hcounters : run'.counters = some (c.retry source.root_task_id n)) (hlimit : c.exhausted = false)
    (hlt : n < c.max_infrastructure_retries_per_root_task) : Adds run a₀ run' := by
  have hget : ∀ root_id, (c.retry source.root_task_id n).roots.get? root_id =
      if source.root_task_id = root_id then some (n + 1) else c.roots.get? root_id := fun root_id => get?_put
  have hcounted := hs.counted
  unfold Run.Counted at hcounted
  rw [hc] at hcounted
  obtain ⟨htotal, -, hroots⟩ := hcounted
  refine ⟨?_, fun a ha ht => (hs.rooted a ha source hsource (ht.trans htask)).trans hroot.symm,
    fun c' root_id m hc' hm => ?_, ?_⟩
  · unfold Run.Counted
    rw [hcounters]
    refine ⟨by simp [hattempts, Counters.retry, htotal], Counters.below hlimit, fun root_id m hm => ?_⟩
    rw [hget] at hm
    split at hm
    · cases hm; exact hlt
    · exact hroots root_id m hm
  · rw [hc] at hc'
    cases hc'
    by_cases heq : source.root_task_id = root_id
    · subst heq
      rw [hn] at hm
      cases hm
      exact ⟨_, n + 1, hcounters, by rw [hget, if_pos rfl], Nat.le_succ n⟩
    · exact ⟨_, m, hcounters, by rw [hget, if_neg heq, hm], le_rfl⟩
  · obtain ⟨c', m, hc', hm, hwrites⟩ := hs.retried source hsource
    rw [hc] at hc'
    cases hc'
    rw [hn] at hm
    cases hm
    refine ⟨_, n + 1, hcounters, by rw [hroot, hget, if_pos rfl], ?_⟩
    rw [htask]
    exact (writes_append hattempts).trans (Nat.succ_le_succ hwrites)

theorem checked_adds (hs : Sound run)
    (horiginal : original ∈ run.attempts) (htask : a₀.task_id = original.task_id)
    (hroot : a₀.root_task_id = original.root_task_id) (hstage : a₀.stage = .check)
    (hattempts : run'.attempts = run.attempts ++ [a₀]) (hc : run.counters = some c)
    (hcounters : run'.counters = some { c with total_attempts := c.total_attempts + 1 })
    (hlimit : c.exhausted = false) : Adds run a₀ run' := by
  have hcounted := hs.counted
  unfold Run.Counted at hcounted
  rw [hc] at hcounted
  obtain ⟨htotal, -, hroots⟩ := hcounted
  refine ⟨?_, fun a ha ht => (hs.rooted a ha original horiginal (ht.trans htask)).trans hroot.symm,
    fun c' root_id m hc' hm => ?_, ?_⟩
  · unfold Run.Counted
    rw [hcounters]
    exact ⟨by simp [hattempts, htotal], Counters.below hlimit, hroots⟩
  · rw [hc] at hc'
    cases hc'
    exact ⟨_, m, hcounters, hm, le_rfl⟩
  · obtain ⟨c', m, hc', hm, hwrites⟩ := hs.retried original horiginal
    rw [hc] at hc'
    cases hc'
    refine ⟨_, m, hcounters, by rw [hroot]; exact hm, ?_⟩
    have hsame : run'.writes original.task_id = run.writes original.task_id := by
      simp [Run.writes, hattempts, countP_append, hstage]
    rw [htask, hsame]
    exact hwrites

theorem retry_attempt_bound {r : Retry} (h : r.source.Bound) : (r.attempt w).Bound :=
  ⟨rfl, rfl, rfl, rfl, h.authorization, h.budget⟩

theorem idle_of_state (hs : Sound run) (hc : run.cancelled = false)
    (ht : run.tasks.get? task_id = some t) (hlive : t.state.live = false) :
    ∀ a ∈ run.attempts, a.task_id = task_id → a.active = false := by
  intro a ha htask
  by_contra hact
  obtain ⟨state, hstate, hstatelive⟩ := (hs.live hc).placed a ha (by simpa using hact)
  simp only [htask, Run.stateOf, ht, Option.map_some, Option.some.injEq] at hstate
  simp [hstate, hstatelive] at hlive

theorem retry_moves (hs : Sound run) (hfresh : ∀ a ∈ run.attempts, a.id ≠ w.attempt_id)
    (hdraws : draws w.attempt_id)
    (h : (retry w run task_id).result = .ok run') : Moves revived fences draws run run' := by
  unfold retry at h
  obtain ⟨r, hready, h⟩ := Trace.bind_ok.mp h
  cases h
  obtain ⟨hc, ⟨task, htask, hfailed⟩, hmem, hsource, hcounters, hretries, hroot, hlimit⟩ := retryReady_ok hready
  have hlive : task.state.live = false := by simp [hfailed, live]
  have hidle := idle_of_state hs hc htask hlive
  have hm : Moves revived fences draws run (run.modifyAttempt r.source.id fun a => { a with fence := a.fence + 1 }) :=
    fence_moves hs hmem fun _ => hidle _ hmem hsource
  have hold : ∀ a ∈ (run.modifyAttempt r.source.id fun a => { a with fence := a.fence + 1 }).attempts,
      ∃ a' ∈ run.attempts, a.id = a'.id ∧ a.task_id = a'.task_id ∧ a.active = a'.active := by
    intro a ha
    obtain ⟨a', ha', rfl⟩ := mem_map.mp ha
    refine ⟨a', ha', ?_⟩
    split <;> exact ⟨rfl, rfl, rfl⟩
  have hmoves : task.Moves revived { task with state := .queued } := by
    refine ⟨rfl, rfl, fun h => ?_, fun h => ?_⟩
    · simp [hfailed, settled] at h
    · simp [hfailed, voided] at h
  have htasks : TasksMove revived run (r.run w run task_id) := by
    refine .modify (f := ({ · with state := .queued })) rfl fun t ht => ?_
    rw [htask] at ht
    cases ht
    exact hmoves
  have hstate : ∀ id, (r.run w run task_id).stateOf id =
      if id = task_id then (run.tasks.get? id).map fun _ => .queued else run.stateOf id :=
    fun id => stateOf_modify (f := ({ · with state := .queued })) rfl
  have hsource' : { r.source with fence := r.source.fence + 1 } ∈
      (run.modifyAttempt r.source.id fun a => { a with fence := a.fence + 1 }).attempts :=
    mem_map.mpr ⟨r.source, hmem, by simp⟩
  refine hm.trans (.snoc hm.sound rfl rfl (fun a ha => ?_) (retry_attempt_bound (hs.bound _ hmem)) rfl
    (retried_adds hm.sound hsource' rfl rfl rfl hcounters hretries rfl hlimit hroot) hdraws hc hc
    htasks.forth (htasks.keyed hs.keyed) (htasks.subjects hs.subjects) ⟨.queued, ?_, rfl, by decide⟩
    (fun id hid => ?_) (fun a ha htask => ?_) fun _ => rfl)
  · obtain ⟨a', ha', hid, -⟩ := hold a ha
    rw [hid]
    exact hfresh a' ha'
  · show (r.run w run task_id).stateOf r.source.task_id = _
    rw [hstate, if_pos hsource, hsource, htask]
    rfl
  · exact (hstate id).trans (if_neg fun heq => hid (heq.trans hsource.symm))
  · obtain ⟨a', ha', -, htask', hact⟩ := hold a ha
    rw [hact]
    exact hidle a' ha' (by rw [← htask', htask]; exact hsource)

theorem check_attempt_bound (h : a.Bound) :
    (checkAttempt w fixture counters a).Bound := ⟨rfl, rfl, rfl, h.fence, h.authorization, h.budget⟩

theorem queueCheck_moves (hs : Sound run) (hc : run.cancelled = false)
    (hfresh : ∀ a ∈ run.attempts, a.id ≠ w.attempt_id) (hdraws : draws w.attempt_id) (htask : run.tasks.get? task.id = some task)
    (hready : task.state = .candidateReady)
    (hfence : fences → run.counters.any (!·.exhausted) = true → ∀ original,
      run.attempts.find? (·.task_id = task.id) = some original → original.fence = original.manifest.fence)
    (h : queueCheck w fixture run task = .ok run') : Moves revived fences draws run run' := by
  simp only [queueCheck, bind_ok, need_ok] at h
  obtain ⟨counters, hcounters, h⟩ := h
  split at h
  · cases h; exact block_moves hs
  case isFalse hlimit =>
    simp only [bind_ok, need_ok, pure_ok] at h
    obtain ⟨original, hfind, rfl⟩ := h
    have horiginal : original ∈ run.attempts := mem_of_find?_eq_some hfind
    have hown : original.task_id = task.id := by simpa using find?_some hfind
    let next : Run := { run.append (checkAttempt w fixture counters original) with
      counters := some { counters with total_attempts := counters.total_attempts + 1 }
      tasks := run.tasks.modify task.id ({ · with state := .checking })
      state := .queued }
    have hstate : ∀ id, next.stateOf id =
        if id = task.id then (run.tasks.get? id).map fun _ => .checking else run.stateOf id :=
      fun id => stateOf_modify (f := ({ · with state := .checking })) rfl
    have htasks : TasksMove revived run next := by
      refine .modify (f := ({ · with state := .checking })) rfl fun t ht => ?_
      rw [htask] at ht
      cases ht
      refine ⟨rfl, rfl, fun h => ?_, fun h => ?_⟩
      · simp [hready, settled] at h
      · simp [hready, voided] at h
    show Moves revived fences draws run next
    refine .snoc hs rfl rfl hfresh (check_attempt_bound (hs.bound _ horiginal)) rfl
      (checked_adds hs horiginal rfl rfl rfl rfl hcounters rfl (by simpa using hlimit)) hdraws hc hc
      htasks.forth (htasks.keyed hs.keyed) (htasks.subjects hs.subjects) ⟨.checking, ?_, rfl, by decide⟩
      (fun id hid => ?_) (fun a ha hatask => ?_) fun hf =>
        hfence hf (by simpa [hcounters] using hlimit) original hfind
    · show next.stateOf original.task_id = _
      rw [hstate, if_pos hown, hown, htask]
      rfl
    · exact (hstate id).trans (if_neg fun heq => hid (heq.trans hown.symm))
    · exact idle_of_state hs hc htask (by simp [hready, live]) a ha (hatask.trans hown)

end Karajan.Orchestration
