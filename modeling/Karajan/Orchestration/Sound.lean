import Karajan.Orchestration.Serial
import Mathlib.Data.List.Pairwise

/-!
# What a document keeps

Attempts are only ever added at the end, and what identifies one stays with it.
Unless the run is cancelled, an attempt that waits for its process or has one
is the only such attempt of its task, and the first of them comes before every
process: one that has one is preceded by none that waits. A task that is being
invalidated is exempt until its attempts are known to have stopped.
-/

namespace Karajan.Orchestration

open List Check
variable {run run' : Run} {a a' b : Attempt}

-- States

/-- A task in the state may have an attempt that waits for its process or has one. -/
def TaskState.live : TaskState → Bool
  | .queued | .checking | .invalidating => true
  | _ => false

def TaskState.settled : TaskState → Bool
  | .queued | .failed | .candidateReady | .checking => false
  | _ => true

def TaskState.voided : TaskState → Bool
  | .invalidating | .invalidated | .cancelled => true
  | _ => false

def Run.stateOf (run : Run) (task_id : String) : Option TaskState := (run.tasks.get? task_id).map (·.state)

def Run.exempt (run : Run) (a : Attempt) : Prop := run.stateOf a.task_id = some .invalidating

theorem Attempt.active_of_occupied (h : a.occupied = true) : a.active = true := by
  simp only [occupied, active, Bool.or_eq_true] at h ⊢
  rcases h with h | h
  · exact .inl (.inr h)
  · exact .inr h

-- Attempts

/-- What identifies an attempt, and what it is launched with, agree. -/
structure Attempt.Bound (a : Attempt) : Prop where
  key : a.start_key = startKey a.id
  manifest : a.manifest.id = a.id
  activation : a.activation.attempt_id = a.id
  fence : a.activation.fence = a.manifest.fence
  authorization : a.activation.authorization_ref = a.manifest.authorization_ref
  budget : a.activation.budget_ref = a.manifest.budget_ref

structure Attempt.Same (a a' : Attempt) : Prop where
  id : a'.id = a.id
  task_id : a'.task_id = a.task_id
  root_task_id : a'.root_task_id = a.root_task_id
  stage : a'.stage = a.stage
  start_key : a'.start_key = a.start_key
  manifest : a'.manifest = a.manifest
  activation : a'.activation = a.activation

theorem Attempt.Same.refl (a : Attempt) : a.Same a := ⟨rfl, rfl, rfl, rfl, rfl, rfl, rfl⟩

theorem Attempt.Same.trans (h : a.Same a') (h' : a'.Same b) : a.Same b :=
  ⟨h'.id.trans h.id, h'.task_id.trans h.task_id, h'.root_task_id.trans h.root_task_id,
    h'.stage.trans h.stage, h'.start_key.trans h.start_key, h'.manifest.trans h.manifest,
    h'.activation.trans h.activation⟩

theorem Attempt.Same.symm (h : a.Same a') : a'.Same a :=
  ⟨h.id.symm, h.task_id.symm, h.root_task_id.symm, h.stage.symm, h.start_key.symm, h.manifest.symm,
    h.activation.symm⟩

theorem Attempt.Bound.same (h : a.Bound) (hs : a.Same a') : a'.Bound where
  key := by rw [hs.start_key, hs.id, h.key]
  manifest := by rw [hs.manifest, hs.id, h.manifest]
  activation := by rw [hs.activation, hs.id, h.activation]
  fence := by rw [hs.activation, hs.manifest, h.fence]
  authorization := by rw [hs.activation, hs.manifest, h.authorization]
  budget := by rw [hs.activation, hs.manifest, h.budget]

-- The outbox

def OutboxRow.brief (row : OutboxRow) : String × OutboxKind × String := (row.id, row.kind, row.attempt_id)

open OutboxRow (brief)

def Rows (l l' : List OutboxRow) : Prop :=
  ∃ more, l'.map brief = l.map brief ++ more ∧ ∀ row ∈ more, row.2.1 ≠ OutboxKind.start

namespace Rows

theorem of_brief (h : l'.map brief = l.map brief) : Rows l l' := ⟨[], by simp [h], by simp⟩

theorem refl (l : List OutboxRow) : Rows l l := .of_brief rfl

theorem trans (h : Rows l l') (h' : Rows l' l'') : Rows l l'' := by
  obtain ⟨more, hmore, hkinds⟩ := h
  obtain ⟨more', hmore', hkinds'⟩ := h'
  refine ⟨more ++ more', by rw [hmore', hmore, append_assoc], fun row hrow => ?_⟩
  rcases mem_append.mp hrow with hrow | hrow
  · exact hkinds row hrow
  · exact hkinds' row hrow

theorem append (h : ∀ row ∈ rows, row.kind ≠ .start) : Rows l (l ++ rows) := by
  refine ⟨rows.map brief, map_append, fun row hrow => ?_⟩
  obtain ⟨row, hmem, rfl⟩ := mem_map.mp hrow
  exact h row hmem

theorem brief_settleFirst : (settleFirst p state l).map brief = l.map brief := by
  induction l with
  | nil => rfl
  | cons row rest ih =>
    unfold settleFirst
    split
    · rfl
    · simp [ih]

theorem starts (h : Rows l l') : (l'.map brief).filter (·.2.1 = .start) =
    (l.map brief).filter (·.2.1 = .start) := by
  obtain ⟨more, hmore, hkinds⟩ := h
  rw [hmore, filter_append, append_right_eq_self, filter_eq_nil_iff]
  intro row hrow
  simpa using hkinds row hrow

theorem kept (h : Rows l l') (hrow : row ∈ l) : ∃ row' ∈ l', row'.brief = row.brief := by
  obtain ⟨more, hmore, -⟩ := h
  have hmem : row.brief ∈ l'.map brief := by
    rw [hmore]
    exact mem_append_left _ (mem_map_of_mem hrow)
  exact mem_map.mp hmem

end Rows

-- Tasks

/-- How a task changes; only a task of `revived` comes back once its work does not count. -/
structure Task.Moves (revived : String → Prop) (t t' : Task) : Prop where
  id : t'.id = t.id
  subject : t'.subject_task_id = t.subject_task_id
  settled : t.state.settled = true → t'.state.settled = true
  voided : t.state.voided = true → t'.state.voided = true ∨ revived t.id

theorem Task.Moves.refl (t : Task) : t.Moves revived t := ⟨rfl, rfl, fun h => h, .inl⟩

theorem Task.Moves.trans {t t' t'' : Task} (h : t.Moves revived t') (h' : t'.Moves revived t'') :
    t.Moves revived t'' where
  id := h'.id.trans h.id
  subject := h'.subject.trans h.subject
  settled hs := h'.settled (h.settled hs)
  voided hv := by
    rcases h.voided hv with hv | hr
    · rcases h'.voided hv with hv | hr
      · exact .inl hv
      · exact .inr (h.id ▸ hr)
    · exact .inr hr

structure TasksMove (revived : String → Prop) (run run' : Run) : Prop where
  forth : run.tasks.Grows (Task.Moves revived) run'.tasks
  back : ∀ id t', run'.tasks.get? id = some t' → ∃ t, run.tasks.get? id = some t

theorem TasksMove.of_eq (h : run'.tasks = run.tasks) : TasksMove revived run run' where
  forth := by
    rw [h]
    exact .refl .refl _
  back id t' ht := ⟨t', h ▸ ht⟩

theorem TasksMove.modify (hd : run'.tasks = run.tasks.modify task_id f)
    (hf : ∀ t, run.tasks.get? task_id = some t → t.Moves revived (f t)) : TasksMove revived run run' where
  forth := by
    rw [hd]
    exact .modify .refl hf
  back id t' ht := by
    rw [hd, Dict.get?_modify] at ht
    split at ht
    · obtain ⟨t, ht, -⟩ := Option.map_eq_some_iff.mp ht
      exact ⟨t, ht⟩
    · exact ⟨t', ht⟩

def Keyed (tasks : Dict String Task) : Prop := ∀ id t, tasks.get? id = some t → t.id = id

def Subjects (tasks : Dict String Task) : Prop :=
  ∀ id t subject_id, tasks.get? id = some t → t.subject_task_id = some subject_id →
    ∃ subject, tasks.get? subject_id = some subject ∧ subject.state.settled = true

theorem TasksMove.of_later {id : String} (h : TasksMove revived run run')
    (ht : run'.tasks.get? id = some t') : ∃ t, run.tasks.get? id = some t ∧ t.Moves revived t' := by
  obtain ⟨t, hold⟩ := h.back id t' ht
  obtain ⟨t'', hnew, hmoves⟩ := h.forth id t hold
  rw [ht] at hnew
  cases hnew
  exact ⟨t, hold, hmoves⟩

theorem TasksMove.keyed (h : TasksMove revived run run') (hk : Keyed run.tasks) : Keyed run'.tasks := by
  intro id t' ht
  obtain ⟨t, hold, hmoves⟩ := h.of_later ht
  exact hmoves.id.trans (hk id t hold)

theorem TasksMove.subjects (h : TasksMove revived run run') (hs : Subjects run.tasks) : Subjects run'.tasks := by
  intro id t' subject_id ht hsubject
  obtain ⟨t, hold, hmoves⟩ := h.of_later ht
  rw [hmoves.subject] at hsubject
  obtain ⟨subject, hget, hsettled⟩ := hs id t subject_id hold hsubject
  obtain ⟨subject', hget', hmoves'⟩ := h.forth _ subject hget
  exact ⟨subject', hget', hmoves'.settled hsettled⟩

theorem stateOf_modify {id : String} (hd : run'.tasks = run.tasks.modify task_id f) :
    run'.stateOf id = if id = task_id then (run.tasks.get? id).map fun t => (f t).state else run.stateOf id := by
  unfold Run.stateOf
  rw [hd, Dict.get?_modify]
  split
  · simp [Function.comp_def]
  · rfl

-- Soundness

def Run.Counted (run : Run) : Prop :=
  match run.counters with
  | none => run.attempts = []
  | some c => c.total_attempts = run.attempts.length ∧ c.total_attempts ≤ c.max_total_attempts ∧
      ∀ root_id n, c.roots.get? root_id = some n → n ≤ c.max_infrastructure_retries_per_root_task

/-- How often work on the task was to be written: once, and once for each retry. -/
def Run.writes (run : Run) (task_id : String) : Nat :=
  run.attempts.countP fun a => a.task_id = task_id && a.stage = .write

def Run.Retried (run : Run) (a : Attempt) : Prop :=
  ∃ c n, run.counters = some c ∧ c.roots.get? a.root_task_id = some n ∧ run.writes a.task_id ≤ n + 1

structure Live (run : Run) : Prop where
  placed : ∀ a ∈ run.attempts, a.active = true → ∃ state, run.stateOf a.task_id = some state ∧ state.live = true
  single : run.attempts.Pairwise fun a b => a.task_id = b.task_id → a.active = true →
    b.active = true → run.exempt a
  serial : run.attempts.Pairwise fun a b => b.occupied = true → a.active = true → run.exempt a ∨ run.exempt b

structure Sound (run : Run) : Prop where
  known : ∀ a ∈ run.attempts, ∃ t, run.tasks.get? a.task_id = some t
  keyed : Keyed run.tasks
  distinct : (run.attempts.map (·.id)).Nodup
  bound : ∀ a ∈ run.attempts, a.Bound
  starts : (run.outbox.map brief).filter (·.2.1 = .start) =
    run.attempts.map fun a => (startKey a.id, .start, a.id)
  counted : run.Counted
  rooted : ∀ a ∈ run.attempts, ∀ b ∈ run.attempts, a.task_id = b.task_id → a.root_task_id = b.root_task_id
  retried : ∀ a ∈ run.attempts, run.Retried a
  cancels : run.cancelled = true → ∀ a ∈ run.attempts, ∃ row ∈ run.outbox,
    row.kind = .cancel ∧ row.attempt_id = a.id
  invalidates : ∀ a ∈ run.attempts, run.exempt a → ∃ row ∈ run.outbox, row.id = invalidateKey a.id
  subjects : Subjects run.tasks
  live : run.cancelled = false → Live run

theorem Run.Counted.of_eq (h : run.Counted) (hc : run'.counters = run.counters)
    (hl : run'.attempts.length = run.attempts.length) : run'.Counted := by
  unfold Counted at h ⊢
  rw [hc]
  split
  case h_1 hnone =>
    rw [hnone] at h
    exact length_eq_zero_iff.mp (hl.trans (length_eq_zero_iff.mpr h))
  case h_2 c hsome =>
    rw [hsome] at h
    exact ⟨h.1.trans hl.symm, h.2⟩

theorem Run.writes_map (hattempts : run'.attempts = run.attempts.map f)
    (hsame : ∀ a ∈ run.attempts, a.Same (f a)) : run'.writes task_id = run.writes task_id := by
  unfold writes
  rw [hattempts, countP_map]
  refine countP_congr fun a ha => ?_
  simp [(hsame a ha).task_id, (hsame a ha).stage]

theorem Sound.relabel (h : Sound run)
    (hattempts : run'.attempts = run.attempts.map f) (hsame : ∀ a ∈ run.attempts, a.Same (f a))
    (htasks : TasksMove revived run run') (hrows : Rows run.outbox run'.outbox)
    (hcounters : run'.counters = run.counters)
    (hcancels : run'.cancelled = true → run.cancelled = true ∨ ∀ a ∈ run.attempts,
      ∃ row ∈ run'.outbox, row.kind = .cancel ∧ row.attempt_id = a.id)
    (hinvalidates : ∀ a ∈ run.attempts, run'.exempt a → run.exempt a ∨
      ∃ row ∈ run'.outbox, row.id = invalidateKey a.id)
    (hlive : run'.cancelled = false → Live run') : Sound run' where
  known a ha := by
    rw [hattempts] at ha
    obtain ⟨a, hmem, rfl⟩ := mem_map.mp ha
    obtain ⟨t, ht⟩ := h.known a hmem
    obtain ⟨t', ht', -⟩ := htasks.forth _ t ht
    exact ⟨t', by rw [(hsame a hmem).task_id, ht']⟩
  keyed := htasks.keyed h.keyed
  distinct := by
    have hids : run'.attempts.map (·.id) = run.attempts.map (·.id) := by
      rw [hattempts, map_map]
      exact map_congr_left fun a ha => (hsame a ha).id
    rw [hids]
    exact h.distinct
  bound a ha := by
    rw [hattempts] at ha
    obtain ⟨a, hmem, rfl⟩ := mem_map.mp ha
    exact (h.bound a hmem).same (hsame a hmem)
  starts := by
    rw [hrows.starts, h.starts, hattempts, map_map]
    refine map_congr_left fun a ha => ?_
    simp [(hsame a ha).id]
  counted := h.counted.of_eq hcounters (by rw [hattempts, length_map])
  rooted a ha b hb htask := by
    rw [hattempts] at ha hb
    obtain ⟨a, hmema, rfl⟩ := mem_map.mp ha
    obtain ⟨b, hmemb, rfl⟩ := mem_map.mp hb
    rw [(hsame a hmema).task_id, (hsame b hmemb).task_id] at htask
    rw [(hsame a hmema).root_task_id, (hsame b hmemb).root_task_id]
    exact h.rooted a hmema b hmemb htask
  retried a ha := by
    rw [hattempts] at ha
    obtain ⟨a, hmem, rfl⟩ := mem_map.mp ha
    obtain ⟨c, n, hc, hn, hwrites⟩ := h.retried a hmem
    refine ⟨c, n, hcounters.trans hc, ?_, ?_⟩
    · rw [(hsame a hmem).root_task_id]
      exact hn
    · rw [(hsame a hmem).task_id, Run.writes_map hattempts hsame]
      exact hwrites
  cancels hc a ha := by
    rw [hattempts] at ha
    obtain ⟨a, hmem, rfl⟩ := mem_map.mp ha
    rw [(hsame a hmem).id]
    rcases hcancels hc with hold | hnew
    · obtain ⟨row, hrow, hkind, hid⟩ := h.cancels hold a hmem
      obtain ⟨row', hrow', hbrief⟩ := hrows.kept hrow
      simp only [brief, Prod.mk.injEq] at hbrief
      exact ⟨row', hrow', hbrief.2.1.trans hkind, hbrief.2.2.trans hid⟩
    · exact hnew a hmem
  invalidates a ha he := by
    rw [hattempts] at ha
    obtain ⟨a, hmem, rfl⟩ := mem_map.mp ha
    rw [(hsame a hmem).id]
    have he' : run'.exempt a := by
      unfold Run.exempt at he ⊢
      rw [(hsame a hmem).task_id] at he
      exact he
    rcases hinvalidates a hmem he' with hold | hnew
    · obtain ⟨row, hrow, hid⟩ := h.invalidates a hmem hold
      obtain ⟨row', hrow', hbrief⟩ := hrows.kept hrow
      simp only [brief, Prod.mk.injEq] at hbrief
      exact ⟨row', hrow', hbrief.1.trans hid⟩
    · exact hnew
  subjects := htasks.subjects h.subjects
  live := hlive

open Attempt (active_of_occupied Same Bound active)

theorem Live.relabel (h : Live run)
    (hattempts : run'.attempts = run.attempts.map f) (hsame : ∀ a ∈ run.attempts, a.Same (f a))
    (hactive : ∀ a ∈ run.attempts, (f a).active = true → run'.exempt a ∨
      a.active = true ∧ run'.stateOf a.task_id = run.stateOf a.task_id)
    (hoccupied : ∀ a ∈ run.attempts, (f a).occupied = true → run'.exempt a ∨ a.occupied = true) : Live run' := by
  have hexempt : ∀ a ∈ run.attempts, run'.exempt (f a) ↔ run'.exempt a := by
    intro a ha
    unfold Run.exempt
    rw [(hsame a ha).task_id]
  have hkept : ∀ a ∈ run.attempts, (f a).active = true → run.exempt a → run'.exempt a := by
    intro a ha hact he
    rcases hactive a ha hact with hnew | ⟨-, hsame⟩
    · exact hnew
    · exact hsame.trans he
  refine ⟨?_, ?_, ?_⟩
  · intro a ha hact
    rw [hattempts] at ha
    obtain ⟨a, hmem, rfl⟩ := mem_map.mp ha
    rw [(hsame a hmem).task_id]
    rcases hactive a hmem hact with hnew | ⟨hold, hstate⟩
    · exact ⟨.invalidating, hnew, rfl⟩
    · rw [hstate]
      exact h.placed a hmem hold
  · rw [hattempts, pairwise_map]
    refine h.single.imp_of_mem fun {a b} ha hb hsingle htask hacta hactb => ?_
    rw [hexempt a ha]
    rw [(hsame a ha).task_id, (hsame b hb).task_id] at htask
    rcases hactive a ha hacta with hnew | ⟨holda, -⟩
    · exact hnew
    · rcases hactive b hb hactb with hnew | ⟨holdb, -⟩
      · unfold Run.exempt at hnew ⊢
        rw [htask]
        exact hnew
      · exact hkept a ha hacta (hsingle htask holda holdb)
  · rw [hattempts, pairwise_map]
    refine h.serial.imp_of_mem fun {a b} ha hb hserial hocc hact => ?_
    rw [hexempt a ha, hexempt b hb]
    rcases hactive a ha hact with hnew | ⟨holda, -⟩
    · exact .inl hnew
    · rcases hoccupied b hb hocc with hnew | holdb
      · exact .inr hnew
      · rcases hserial holdb holda with he | he
        · exact .inl (hkept a ha hact he)
        · exact .inr (hkept b hb (active_of_occupied hocc) he)

structure Adds (run : Run) (a₀ : Attempt) (run' : Run) : Prop where
  counted : run'.Counted
  rooted : ∀ a ∈ run.attempts, a.task_id = a₀.task_id → a.root_task_id = a₀.root_task_id
  roots : ∀ c root_id n, run.counters = some c → c.roots.get? root_id = some n →
    ∃ c' n', run'.counters = some c' ∧ c'.roots.get? root_id = some n' ∧ n ≤ n'
  retried : run'.Retried a₀

theorem Adds.writes (hattempts : run'.attempts = run.attempts ++ [a₀])
    (hne : a₀.task_id ≠ task_id) : run'.writes task_id = run.writes task_id := by
  simp [Run.writes, hattempts, countP_append, hne]

theorem Adds.all_retried (h : Adds run a₀ run') (hs : ∀ a ∈ run.attempts, run.Retried a)
    (hattempts : run'.attempts = run.attempts ++ [a₀]) : ∀ a ∈ run'.attempts, run'.Retried a := by
  intro a ha
  rw [hattempts] at ha
  rcases mem_append.mp ha with ha | ha
  · by_cases htask : a.task_id = a₀.task_id
    · obtain ⟨c, n, hc, hn, hwrites⟩ := h.retried
      exact ⟨c, n, hc, by rw [h.rooted a ha htask, hn], by rw [htask]; exact hwrites⟩
    · obtain ⟨c, n, hc, hn, hwrites⟩ := hs a ha
      obtain ⟨c', n', hc', hn', hle⟩ := h.roots c _ n hc hn
      refine ⟨c', n', hc', hn', ?_⟩
      rw [Adds.writes hattempts fun heq => htask heq.symm]
      exact Nat.le_trans hwrites (Nat.succ_le_succ hle)
  · rw [mem_singleton.mp ha]
    exact h.retried

theorem Adds.all_rooted (h : Adds run a₀ run')
    (hs : ∀ a ∈ run.attempts, ∀ b ∈ run.attempts, a.task_id = b.task_id → a.root_task_id = b.root_task_id)
    (hattempts : run'.attempts = run.attempts ++ [a₀]) : ∀ a ∈ run'.attempts, ∀ b ∈ run'.attempts,
      a.task_id = b.task_id → a.root_task_id = b.root_task_id := by
  have hmem : ∀ a ∈ run'.attempts, a ∈ run.attempts ∨ a = a₀ := by
    intro a ha
    rw [hattempts] at ha
    simpa using ha
  intro a ha b hb htask
  rcases hmem a ha with ha | rfl
  · rcases hmem b hb with hb | rfl
    · exact hs a ha b hb htask
    · exact h.rooted a ha htask
  · rcases hmem b hb with hb | rfl
    · exact (h.rooted b hb htask.symm).symm
    · rfl

theorem Sound.snoc (h : Sound run) (hattempts : run'.attempts = run.attempts ++ [a₀])
    (houtbox : run'.outbox = run.outbox ++ [startRow a₀]) (hfresh : ∀ a ∈ run.attempts, a.id ≠ a₀.id)
    (hbound : a₀.Bound) (hqueued : a₀.state = .queued) (hadds : Adds run a₀ run')
    (hcancelled : run.cancelled = false) (hcancelled' : run'.cancelled = false)
    (hkeyed : Keyed run'.tasks) (hsubjects : Subjects run'.tasks)
    (hown : ∃ state, run'.stateOf a₀.task_id = some state ∧ state.live = true ∧ state ≠ .invalidating)
    (hothers : ∀ id, id ≠ a₀.task_id → run'.stateOf id = run.stateOf id)
    (hfree : ∀ a ∈ run.attempts, a.task_id = a₀.task_id → a.active = false) : Sound run' := by
  obtain ⟨own, hget, hlive, hne⟩ := hown
  have hmem : ∀ a ∈ run'.attempts, a ∈ run.attempts ∨ a = a₀ := by
    intro a ha
    rw [hattempts] at ha
    simpa using ha
  have hexempt : ∀ a, run'.exempt a → run.exempt a := by
    intro a he
    unfold Run.exempt at he ⊢
    by_cases htask : a.task_id = a₀.task_id
    · rw [htask, hget] at he
      exact absurd (Option.some.inj he) hne
    · rw [hothers _ htask] at he
      exact he
  have hstate : ∀ a ∈ run.attempts, a.active = true → run'.stateOf a.task_id = run.stateOf a.task_id := by
    intro a ha hact
    refine hothers _ fun htask => ?_
    simp [hfree a ha htask] at hact
  have hoccupied : a₀.occupied = false := by simp [Attempt.occupied, hqueued]
  have hold : Live run := h.live hcancelled
  refine ⟨?_, hkeyed, ?_, ?_, ?_, hadds.counted, hadds.all_rooted h.rooted hattempts,
    hadds.all_retried h.retried hattempts, ?_, ?_, hsubjects, fun _ => ⟨?_, ?_, ?_⟩⟩
  · intro a ha
    rcases hmem a ha with ha | rfl
    · by_cases htask : a.task_id = a₀.task_id
      · obtain ⟨t, ht, -⟩ := Option.map_eq_some_iff.mp hget
        exact ⟨t, by rw [htask, ht]⟩
      · obtain ⟨t, ht⟩ := h.known a ha
        have hsome : run'.stateOf a.task_id = some t.state := by
          rw [hothers _ htask]
          simp [Run.stateOf, ht]
        obtain ⟨t', ht', -⟩ := Option.map_eq_some_iff.mp hsome
        exact ⟨t', ht'⟩
    · obtain ⟨t, ht, -⟩ := Option.map_eq_some_iff.mp hget
      exact ⟨t, ht⟩
  · rw [hattempts]
    exact nodup_snoc h.distinct hfresh
  · intro a ha
    rcases hmem a ha with ha | rfl
    · exact h.bound a ha
    · exact hbound
  · rw [houtbox, hattempts, map_append, filter_append, h.starts, map_append]
    simp [startRow, brief, hbound.key]
  · intro hc
    simp [hcancelled'] at hc
  · intro a ha he
    rw [houtbox]
    rcases hmem a ha with ha | rfl
    · obtain ⟨row, hrow, hid⟩ := h.invalidates a ha (hexempt a he)
      exact ⟨row, mem_append_left _ hrow, hid⟩
    · unfold Run.exempt at he
      rw [hget] at he
      exact absurd (Option.some.inj he) hne
  · intro a ha hact
    rcases hmem a ha with ha | rfl
    · rw [hstate a ha hact]
      exact hold.placed a ha hact
    · exact ⟨own, hget, hlive⟩
  · rw [hattempts, pairwise_append]
    refine ⟨hold.single.imp_of_mem fun {a b} ha hb hsingle htask hacta hactb => ?_, by simp, ?_⟩
    · unfold Run.exempt
      rw [hstate a ha hacta]
      exact hsingle htask hacta hactb
    · intro a ha b hb htask hacta hactb
      rw [mem_singleton.mp hb] at htask
      simp [hfree a ha htask] at hacta
  · rw [hattempts, pairwise_append]
    refine ⟨hold.serial.imp_of_mem fun {a b} ha hb hserial hocc hact => ?_, by simp, ?_⟩
    · unfold Run.exempt
      rw [hstate a ha hact, hstate b hb (active_of_occupied hocc)]
      exact hserial hocc hact
    · intro a ha b hb hocc hact
      rw [mem_singleton.mp hb, hoccupied] at hocc
      cases hocc

-- Work on the first active attempt

/-- The attempt that is worked on, where no task is being invalidated. -/
structure Working (run : Run) (x : Attempt) : Prop where
  first : run.attempts.find? active = some x
  calm : ∀ id, run.stateOf id ≠ some .invalidating
  uncancelled : run.cancelled = false

theorem Working.mem (h : Working run x) : x ∈ run.attempts := mem_of_find?_eq_some h.first

theorem Working.active (h : Working run x) : x.active = true := find?_some h.first

theorem Sound.pairwise (h : Sound run) : run.attempts.Pairwise fun a b => a.id ≠ b.id :=
  pairwise_map.mp h.distinct

theorem Sound.same_id (h : Sound run) (ha : a ∈ run.attempts) (hb : b ∈ run.attempts)
    (hid : a.id = b.id) : a = b :=
  inj_on_of_nodup_map h.distinct ha hb hid

section
variable (h : Working run x) (hs : Sound run)
include h hs

theorem Working.before : run.attempts.Pairwise fun a b => b = x → a.active = false := by
  obtain ⟨hx, before, after, hsplit, hbefore⟩ := find?_eq_some_iff_append.mp h.first
  have hne := hs.pairwise
  rw [hsplit] at hne ⊢
  obtain ⟨-, hrest, -⟩ := pairwise_append.mp hne
  obtain ⟨hfirst, -⟩ := pairwise_cons.mp hrest
  have hafter : ∀ b ∈ after, b ≠ x := fun b hb heq => hfirst b hb (by rw [heq])
  refine pairwise_append.mpr ⟨?_, pairwise_cons.mpr ⟨?_, ?_⟩, ?_⟩
  · refine pairwise_of_forall_mem_list fun a ha b hb heq => ?_
    simpa using hbefore a ha
  · exact fun b hb heq => absurd heq (hafter b hb)
  · exact pairwise_of_forall_mem_list fun a ha b hb heq => absurd heq (hafter b hb)
  · intro a ha b hb heq
    simpa using hbefore a ha

theorem Working.others : run.attempts.Pairwise fun a b => a.active = true → b.active = true →
      b ≠ x ∧ b.occupied = false ∧ a.task_id ≠ b.task_id := by
  have hlive := hs.live h.uncancelled
  refine ((h.before hs).and (hlive.single.and hlive.serial)).imp_of_mem ?_
  rintro a b ha hb ⟨hbefore, hsingle, hserial⟩ hacta hactb
  refine ⟨fun heq => ?_, ?_, fun htask => h.calm a.task_id (hsingle htask hacta hactb)⟩
  · simp [hbefore heq] at hacta
  · by_contra hocc
    rcases hserial (by simpa using hocc) hacta with he | he
    · exact h.calm a.task_id he
    · exact h.calm b.task_id he

theorem Working.elsewhere (ha : a ∈ run.attempts) (hne : a ≠ x)
    (hact : a.active = true) : a.task_id ≠ x.task_id := by
  let R := fun a b : Attempt => a.active = true → b.active = true → a.task_id ≠ b.task_id
  have hsymm : Std.Symm R := ⟨fun a b hab hb ha => (hab ha hb).symm⟩
  have hpairs : run.attempts.Pairwise R := (h.others hs).imp fun hpair hacta hactb => (hpair hacta hactb).2.2
  exact hpairs.forall ha h.mem hne hact h.active

theorem Working.live (hattempts : run'.attempts = run.attempts.map fun a => if a.id = x.id then x' else a) (hsame : x.Same x')
    (hown : x'.active = true → ∃ state, run'.stateOf x.task_id = some state ∧ state.live = true)
    (hothers : ∀ a ∈ run.attempts, a.active = true → a.task_id ≠ x.task_id →
      run'.stateOf a.task_id = run.stateOf a.task_id) : Live run' := by
  have hf : ∀ a ∈ run.attempts, a = x ∧ (if a.id = x.id then x' else a) = x' ∨
      a ≠ x ∧ (if a.id = x.id then x' else a) = a := by
    intro a ha
    by_cases hid : a.id = x.id
    · exact .inl ⟨hs.same_id ha h.mem hid, if_pos hid⟩
    · exact .inr ⟨fun heq => hid (by rw [heq]), if_neg hid⟩
  have hlive := hs.live h.uncancelled
  have htask : ∀ a ∈ run.attempts, a ≠ x → a.active = true → a.task_id ≠ x.task_id :=
    fun a ha hne hact => h.elsewhere hs ha hne hact
  refine ⟨?_, ?_, ?_⟩
  · intro a ha hact
    rw [hattempts] at ha
    obtain ⟨a, hmem, rfl⟩ := mem_map.mp ha
    rcases hf a hmem with ⟨rfl, heq⟩ | ⟨hne, heq⟩
    · rw [heq] at hact ⊢
      rw [hsame.task_id]
      exact hown hact
    · rw [heq] at hact ⊢
      rw [hothers a hmem hact (htask a hmem hne hact)]
      exact hlive.placed a hmem hact
  · rw [hattempts, pairwise_map]
    refine ((h.others hs).and hs.pairwise).imp_of_mem ?_
    rintro a b ha hb ⟨hpair, hids⟩ hsametask hacta hactb
    exfalso
    rcases hf a ha with ⟨rfl, heqa⟩ | ⟨hnea, heqa⟩
    · rcases hf b hb with ⟨rfl, -⟩ | ⟨hneb, heqb⟩
      · exact hids rfl
      · rw [heqb] at hsametask hactb
        rw [heqa, hsame.task_id] at hsametask
        exact htask b hb hneb hactb hsametask.symm
    · rw [heqa] at hsametask hacta
      rcases hf b hb with ⟨rfl, heqb⟩ | ⟨hneb, heqb⟩
      · rw [heqb, hsame.task_id] at hsametask
        exact htask a ha hnea hacta hsametask
      · rw [heqb] at hsametask hactb
        exact (hpair hacta hactb).2.2 hsametask
  · rw [hattempts, pairwise_map]
    refine (((h.others hs).and (h.before hs)).and hs.pairwise).imp_of_mem ?_
    rintro a b ha hb ⟨⟨hpair, hbefore⟩, hids⟩ hocc hact
    exfalso
    rcases hf b hb with ⟨rfl, heqb⟩ | ⟨hneb, heqb⟩
    · have hnea : a ≠ b := fun heq => hids (by rw [heq])
      rcases hf a ha with ⟨heq, -⟩ | ⟨-, heqa⟩
      · exact hnea heq
      · rw [heqa] at hact
        simp [hbefore rfl] at hact
    · rw [heqb] at hocc
      rcases hf a ha with ⟨rfl, -⟩ | ⟨hnea, heqa⟩
      · simp [(hpair h.active (active_of_occupied hocc)).2.1] at hocc
      · rw [heqa] at hact
        simp [(hpair hact (active_of_occupied hocc)).2.1] at hocc

end

end Karajan.Orchestration
