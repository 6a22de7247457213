import Karajan.Orchestration.Effects
import Karajan.Execution.Launches
import Karajan.Lib.Listing

/-!
# What the coordinator keeps

A command changes one document, and one that fails or stops half way changes
none. Every document that is ever stored is sound.
-/

namespace Karajan.Orchestration

open Dict Check

-- Documents

def Db.document (db : Db) (run_id : String) : Run := (db.runs.get? run_id).getD (Run.new run_id)

def Db.fresh (db : Db) (id : String) : Bool := db.runs.values.all fun run => run.attempts.all (·.id ≠ id)

def Action.draws : Action → Option String
  | .enqueue _ _ _ _ _ w => some w.attempt_id
  | .retry _ _ _ _ w => some w.attempt_id
  | .control .. => none
  | .advance _ w => some w.attempt_id
  | .crash _ action => action.draws

def Fresh (db : Db) (action : Action) : Prop := action.draws.all db.fresh = true

instance (db : Db) (action : Action) : Decidable (Fresh db action) := inferInstanceAs (Decidable (_ = _))

variable {w : World} {db db' : Db} {run_id id : String} {revived draws : String → Prop}

theorem document_of_get (h : db.runs.get? run_id = some run) : db.document run_id = run := by
  simp [Db.document, h]

theorem document_save : (db.save run_id run).document id = if run_id = id then run else db.document id := by
  simp only [Db.document, Db.save, get?_put]
  split <;> rfl

theorem fresh_of (h : db.fresh id = true) : ∀ a ∈ (db.document run_id).attempts, a.id ≠ id := by
  intro a ha
  unfold Db.document at ha
  cases hget : db.runs.get? run_id with
  | none => simp [hget, Run.new] at ha
  | some run =>
    rw [hget] at ha
    have hrun := List.all_eq_true.mp h run (Dict.mem_values.mpr ⟨run_id, hget⟩)
    simpa using List.all_eq_true.mp hrun a ha

theorem new_sound (run_id : String) : Sound (Run.new run_id) where
  known := by simp [Run.new]
  keyed := by simp [Keyed, Run.new, empty, get?, lookup]
  distinct := by simp [Run.new]
  bound := by simp [Run.new]
  starts := rfl
  counted := rfl
  rooted := by simp [Run.new]
  retried := by simp [Run.new]
  cancels := by simp [Run.new]
  invalidates := by simp [Run.new]
  subjects := by simp [Subjects, Run.new, empty, get?, lookup]
  live _ := ⟨by simp [Run.new], by simp [Run.new], by simp [Run.new]⟩

-- Commands

structure Changes (run_id : String) (revived : String → String → Prop) (fences : Prop)
    (draws : String → Prop) (db db' : Db) : Prop where
  moves : ∀ id, Moves (revived id) fences draws (db.document id) (db'.document id)
  elsewhere : ∀ id, id ≠ run_id → db'.document id = db.document id

def Action.revives (db : Db) : Action → String → String → Prop
  | .advance run_id w, id, task_id => id = run_id ∧ Works w (db.document run_id) ∧
      Revives w (db.document run_id) task_id
  | _, _, _ => False

/-- What the fences of the checks rest on that a command queues. -/
def Action.unretried (db : Db) : Action → Prop
  | .advance run_id w => Works w (db.document run_id) → Unretried (db.document run_id)
  | _ => True

section
variable {revived : String → String → Prop}

theorem Changes.refl (hs : ∀ id, Sound (db.document id)) :
    Changes run_id revived fences draws db db := ⟨fun id => .refl (hs id), fun _ _ => rfl⟩

theorem Changes.save (hs : ∀ id, Sound (db.document id))
    (h : Moves (revived run_id) fences draws (db.document run_id) run) :
    Changes run_id revived fences draws db (db.save run_id run) := by
  refine ⟨fun id => ?_, fun id hid => ?_⟩
  · rw [document_save]
    split
    case isTrue hid => exact hid ▸ h
    · exact .refl (hs id)
  · rw [document_save]
    exact if_neg fun h => hid h.symm

theorem Changes.record (h : Changes run_id revived fences draws db db') :
    Changes run_id revived fences draws db (db'.record principal command_key payload run) :=
  ⟨h.moves, h.elsewhere⟩

theorem control_changes {action : ControlAction}
    (hs : ∀ id, Sound (db.document id)) (h : control L run_id action command_key principal db = .ok db') :
    Changes run_id revived fences draws db db' := by
  simp only [control, bind_ok] at h
  obtain ⟨-, -, replayed, -, h⟩ := h
  split at h
  · cases h; exact .refl hs
  · obtain ⟨run, hrun, h⟩ := bind_ok.mp h
    obtain ⟨-, -, h⟩ := bind_ok.mp h
    cases h
    rw [← document_of_get (need_ok.mp hrun)]
    exact (Changes.save hs (control_moves (hs run_id))).record

end

section
variable (hs : ∀ id, Sound (db.document id)) (hfresh : db.fresh w.attempt_id = true) (hdraws : draws w.attempt_id)
include hs hfresh hdraws

section
variable {revived : String → String → Prop}

theorem enqueueTask_changes (h : enqueueTask L w run_id task_id profile_ref db = .ok (db', run)) :
    Changes run_id revived fences draws db db' := by
  unfold enqueueTask at h
  simp only at h
  split at h
  case h_1 binding fixture hchecked hfixture =>
    obtain ⟨material, -, hchecked⟩ := bind_ok.mp hchecked
    split at hchecked
    · cases hchecked
    case h_2 hrefusal =>
      cases hchecked
      obtain ⟨queued, hqueued, h⟩ := bind_ok.mp h
      cases h
      exact .save hs (queue_moves (hs run_id) (fresh_of hfresh) hdraws hrefusal hqueued)
  · cases h
  · cases h
    split
    · exact .save hs (block_moves (hs run_id))
    · exact .refl hs

theorem enqueue_changes (h : enqueue L w run_id task_id profile_ref command_key principal db = .ok db') :
    Changes run_id revived fences draws db db' := by
  simp only [enqueue, bind_ok] at h
  obtain ⟨-, -, replayed, -, h⟩ := h
  split at h
  · cases h; exact .refl hs
  · obtain ⟨⟨db', result⟩, hqueued, h⟩ := bind_ok.mp h
    cases h
    exact (enqueueTask_changes hs hfresh hdraws hqueued).record

theorem retryCommand_changes (h : (retryCommand L w run_id task_id command_key principal db).result = .ok db') :
    Changes run_id revived fences draws db db' := by
  simp only [retryCommand] at h
  obtain ⟨-, -, h⟩ := Trace.bind_ok.mp h
  obtain ⟨replayed, -, h⟩ := Trace.bind_ok.mp h
  split at h
  · cases h; exact .refl hs
  · obtain ⟨run, hrun, h⟩ := Trace.bind_ok.mp h
    obtain ⟨retried, hretried, h⟩ := Trace.bind_ok.mp h
    cases h
    rw [← document_of_get (need_ok.mp hrun)] at hretried
    exact (Changes.save hs (retry_moves (hs run_id) (fresh_of hfresh) hdraws hretried)).record

end

theorem advanceCommand_changes (h : (advanceCommand L w run_id db).result = .ok db') :
    Changes run_id ((Action.advance run_id w).revives db) ((Action.advance run_id w).unretried db) draws db db' := by
  simp only [advanceCommand] at h
  obtain ⟨run, hrun, h⟩ := Trace.bind_ok.mp h
  obtain ⟨advanced, hadvanced, h⟩ := Trace.bind_ok.mp h
  cases h
  rw [← document_of_get (need_ok.mp hrun)] at hadvanced
  refine Changes.save hs (advance_moves (hs run_id) (fresh_of hfresh) hdraws (fun h => h) ?_ hadvanced)
  exact fun id hworks hrevives => ⟨rfl, hworks, hrevives⟩

end

theorem step_changes (hs : ∀ id, Sound (db.document id)) (hf : Fresh db action) :
    Changes action.run_id (action.revives db) (action.unretried db) (fun id => action.draws = some id) db (step L db action) := by
  unfold step
  split
  case h_2 => exact .refl hs
  case h_1 db' hresult =>
    cases action with
    | enqueue run_id task_id profile_ref command_key principal w =>
      exact enqueue_changes hs hf (by rfl) hresult
    | retry run_id task_id command_key principal w => exact retryCommand_changes hs hf (by rfl) hresult
    | control run_id action command_key principal => exact control_changes hs hresult
    | advance run_id w => exact advanceCommand_changes hs hf rfl hresult
    | crash effects action =>
      cases hresult
      exact .refl hs

-- Runs

theorem documents_sound (hok : ∀ db action, ok db action → Fresh db action)
    (h : (system L).Reach ok db) : ∀ id, Sound (db.document id) := by
  refine h.invariant (I := fun db => ∀ id, Sound (db.document id)) ?_ ?_
  · rintro db rfl id
    exact new_sound id
  · exact fun db action hs ha id => ((step_changes hs (hok db action ha)).moves id).sound

theorem path_moves (hok : ∀ p action, ok p action → Fresh p.1 action) (hs : ∀ id, Sound (p.1.document id))
    (hp : ((system L).traced (emit L)).Path ok p p') :
    ∀ id, Moves (fun _ => True) False (fun _ => True) (p.1.document id) (p'.1.document id) := by
  refine hp.keeps (I := fun q => ∀ id,
    Moves (fun _ => True) False (fun _ => True) (p.1.document id) (q.1.document id)) ?_ fun id => .refl (hs id)
  intro q action hq ha id
  refine (hq id).trans (((step_changes (fun id => (hq id).sound) (hok q action ha)).moves id).mono ?_ ?_ ?_)
  · exact fun _ _ => trivial
  · exact fun h => h.elim
  · exact fun _ _ => trivial

end Karajan.Orchestration

-- Attempts

namespace Karajan.Orchestration

open Check
variable {w : World} {run_id id : String}

-- One document

structure Accounted (L : Library) (run : Run) : Prop where
  counted : run.Counted
  retried : ∀ a ∈ run.attempts, run.Retried a
  exclusive : run.cancelled = false → (∀ id, run.stateOf id ≠ some .invalidating) →
    run.attempts.Pairwise fun a b => a.occupied = true → b.occupied = false
  starts : ∀ a ∈ run.attempts,
    (run.outbox.filter fun row => row.kind = .start && row.attempt_id = a.id).map (·.id) = [a.start_key]
  keys : (run.attempts.map (·.start_key)).Nodup
  /-- The rows that stopping attempts looks for are there. -/
  stops : ∀ w, run.cancelled = true ∨ (∃ id, run.stateOf id = some .invalidating) →
    ∃ run', (advance L w run).result = .ok run'

theorem startKey_injective (h : startKey id = startKey id') : id = id' := (String.append_right_inj _).mp h

theorem Sound.start_key (hs : Sound run) (ha : a ∈ run.attempts) (hb : b ∈ run.attempts)
    (h : a.start_key = b.start_key) : a = b := by
  refine hs.same_id ha hb (startKey_injective ?_)
  rw [← (hs.bound a ha).key, ← (hs.bound b hb).key, h]

theorem Sound.start_rows (hs : Sound run) (ha : a ∈ run.attempts) :
    (run.outbox.filter fun row => row.kind = .start && row.attempt_id = a.id).map (·.id) = [a.start_key] := by
  have hstarts := congrArg (List.filter fun brief => brief.2.2 = a.id) hs.starts
  rw [List.filter_filter, List.filter_map, List.filter_map] at hstarts
  have hown : run.attempts.filter ((fun brief : String × OutboxKind × String => brief.2.2 = a.id) ∘
      fun a => (startKey a.id, .start, a.id)) = [a] := by
    refine Listing.filter_only hs.distinct.of_map ha (by simp) fun b hb h => ?_
    exact hs.same_id hb ha (of_decide_eq_true h)
  rw [hown] at hstarts
  have hkeys := congrArg (List.map Prod.fst) hstarts
  rw [List.map_map] at hkeys
  rw [(hs.bound a ha).key]
  refine Eq.trans ?_ hkeys
  congr 1
  exact List.filter_congr fun row _ => Bool.and_comm _ _

theorem Sound.accounted (hs : Sound run) : Accounted L run where
  counted := hs.counted
  retried := hs.retried
  exclusive hc hcalm := by
    refine (hs.live hc).serial.imp fun {a b} hserial hocc => ?_
    by_contra hocc'
    rcases hserial (by simpa using hocc') (Attempt.active_of_occupied hocc) with he | he
    · exact hcalm _ he
    · exact hcalm _ he
  starts a ha := hs.start_rows ha
  keys := by
    have hkeys : run.attempts.map (·.start_key) = (run.attempts.map (·.id)).map startKey := by
      rw [List.map_map]
      exact List.map_congr_left fun a ha => (hs.bound a ha).key
    rw [hkeys]
    exact hs.distinct.map fun id id' h => startKey_injective h
  stops w h := advance_stops hs h

-- What a command does

/-- The attempt waits for its start, and no other is known by its key. -/
structure Waits (run : Run) (a : Attempt) : Prop where
  queued : a.state = .queued
  bound : a.Bound
  own : a ∈ run.attempts ∨ ∀ b ∈ run.attempts, b.start_key ≠ a.start_key

structure Event.Allowed (event : Event) : Prop where
  started : ∀ start_key activation, .started start_key activation ∈ event.effects →
    ∃ run a, event.before = some run ∧ run.paused = false ∧ run.cancelled = false ∧ Waits run a ∧
      start_key = a.start_key ∧ activation = a.activation
  frozen : ∀ attempt_id, .frozen attempt_id ∈ event.effects →
    ∃ run, event.before = some run ∧ run.cancelled = false

theorem transact_effects (h : e ∈ (transact L db action).effects) : e.stops ∨
    ∃ run w next x, db.runs.get? action.run_id = some run ∧ action.draws = some w.attempt_id ∧
      WorksOn w run next x ∧ (x.state = .queued ∧ e.launches x ∨ x.state ≠ .queued ∧ e.concludes x) := by
  induction action with
  | enqueue | control => simp [transact] at h
  | retry run_id task_id command_key principal w =>
    obtain ⟨-, -, h⟩ := Trace.mem_lift_bind.mp h
    obtain ⟨replayed, -, h⟩ := Trace.mem_lift_bind.mp h
    split at h
    · simp at h
    · obtain ⟨run, -, h⟩ := Trace.mem_lift_bind.mp h
      rcases Trace.mem_bind.mp h with h | ⟨retried, -, h⟩
      · exact .inl (retry_effects h)
      · simp at h
  | advance run_id w =>
    obtain ⟨run, hrun, h⟩ := Trace.mem_lift_bind.mp h
    rcases Trace.mem_bind.mp h with h | ⟨advanced, -, h⟩
    · refine (advance_effects h).imp_right ?_
      rintro ⟨next, x, hx, he⟩
      exact ⟨run, w, next, x, need_ok.mp hrun, rfl, hx, he⟩
    · simp at h
  | crash effects action ih => exact ih (List.mem_of_mem_take h)

theorem queuePending_attempts (h : queuePending w run = .ok next) : next.attempts = run.attempts ∨
    ∃ a, next.attempts = run.attempts ++ [a] ∧ a.id = w.attempt_id := by
  rcases queuePending_ok h with ⟨-, rfl⟩ | ⟨task, fixture, -, hqueue⟩
  · exact .inl rfl
  · rcases queueCheck_ok hqueue with ⟨codes, rfl⟩ | ⟨counters, original, rfl⟩
    · exact .inl rfl
    · exact .inr ⟨_, rfl, rfl⟩

section
variable (h : WorksOn w run next x) (hs : Sound run) (hfresh : ∀ a ∈ run.attempts, a.id ≠ w.attempt_id)
include h hs hfresh

theorem WorksOn.sound : Moves (fun _ => False) False (fun _ => True) run next :=
  queuePending_moves hs h.works.uncancelled hfresh trivial (fun h => h.elim) h.queued

theorem WorksOn.waits (hqueued : x.state = .queued) : Waits run x := by
  have hx : x ∈ next.attempts := List.mem_of_find?_eq_some h.first
  have hbound : x.Bound := (h.sound hs hfresh).sound.bound x hx
  refine ⟨hqueued, hbound, ?_⟩
  rcases queuePending_attempts h.queued with heq | ⟨a, heq, hid⟩
  · exact .inl (heq ▸ hx)
  · rw [heq] at hx
    rcases List.mem_append.mp hx with hx | hx
    · exact .inl hx
    · rw [List.mem_singleton] at hx
      subst hx
      refine .inr fun b hb hkey => hfresh b hb (startKey_injective ?_)
      rw [← (hs.bound b hb).key, hkey, hbound.key, hid]

end

theorem found_sound (hs : ∀ id, Sound (db.document id)) (hf : Fresh db action)
    (hrun : db.runs.get? run_id = some run) (hdraws : action.draws = some id) :
    Sound run ∧ ∀ a ∈ run.attempts, a.id ≠ id := by
  have hsound := hs run_id
  have hfresh : db.fresh id = true := by simpa [Fresh, hdraws] using hf
  have hnew : ∀ a ∈ (db.document run_id).attempts, a.id ≠ id := fresh_of hfresh
  rw [document_of_get hrun] at hsound hnew
  exact ⟨hsound, hnew⟩

theorem emit_allowed (hs : ∀ id, Sound (db.document id)) (hf : Fresh db action)
    (he : emit L db action = some event) : event.Allowed := by
  cases he
  refine ⟨fun start_key activation he => ?_, fun attempt_id he => ?_⟩
  · rcases transact_effects he with he | ⟨run, w, next, x, hrun, hdraws, hx, ⟨hqueued, he⟩ | ⟨-, he⟩⟩
    · exact he.elim
    · obtain ⟨hsound, hfresh⟩ := found_sound hs hf hrun hdraws
      exact ⟨run, x, hrun, hx.works.unpaused, hx.works.uncancelled, hx.waits hsound hfresh hqueued, he.1, he.2⟩
    · exact he.elim
  · rcases transact_effects he with he | ⟨run, w, next, x, hrun, -, hx, -⟩
    · exact he.elim
    · exact ⟨run, hrun, hx.works.uncancelled⟩

-- Runs

def Apart (db : Db) : Prop := ∀ id id', id ≠ id' → ∀ a ∈ (db.document id).attempts,
  ∀ b ∈ (db.document id').attempts, a.id ≠ b.id

theorem step_apart (hs : ∀ id, Sound (db.document id)) (hf : Fresh db action) (h : Apart db) :
    Apart (step L db action) := by
  have hnew : ∀ id id', id ≠ id' → id' ≠ action.run_id → ∀ a ∈ ((step L db action).document id).attempts,
      ∀ b ∈ ((step L db action).document id').attempts, a.id ≠ b.id := by
    intro id id' hne hid a ha b hb heq
    have hchanges := step_changes (L := L) hs hf
    rw [hchanges.elsewhere id' hid] at hb
    rcases (hchanges.moves id).drawn a ha with ⟨a', ha', ha''⟩ | hdrawn
    · exact h id id' hne a' ha' b hb (ha''.symm.trans heq)
    · have hfresh : db.fresh a.id = true := by simpa [Fresh, hdrawn] using hf
      exact fresh_of hfresh b hb heq.symm
  intro id id' hne a ha b hb
  by_cases hid : id' = action.run_id
  · refine fun heq => hnew id' id (fun h => hne h.symm) (fun h => hne (h.trans hid.symm)) b hb a ha heq.symm
  · exact hnew id id' hne hid a ha b hb

theorem new_apart : Apart Db.empty := by
  intro id id' _ a ha
  simp [Db.document, Db.empty, Dict.empty, Dict.get?, Dict.lookup, Run.new] at ha

structure HistoryInv (db : Db) (log : List Event) : Prop where
  sound : ∀ id, Sound (db.document id)
  apart : Apart db
  allowed : ∀ event ∈ log, event.Allowed

theorem historyInv_reach (hok : ∀ p action, ok p action → Fresh p.1 action)
    (h : ((system L).traced (emit L)).Reach ok p) : HistoryInv p.1 p.2 := by
  refine h.invariant (I := fun p => HistoryInv p.1 p.2) ?_ fun p action hp ha => ?_
  · rintro ⟨db, log⟩ ⟨hdb, hlog⟩
    cases hdb
    cases hlog
    exact ⟨new_sound, new_apart, by simp⟩
  · have hf := hok p action ha
    refine ⟨fun id => ((step_changes hp.sound hf).moves id).sound, step_apart hp.sound hf hp.apart, ?_⟩
    intro event hevent
    rcases List.mem_append.mp hevent with hevent | hevent
    · exact hp.allowed event hevent
    · exact emit_allowed hp.sound hf (Option.mem_toList.mp hevent)

theorem spawned_once
    (h : ((Execution.system M).traced (Execution.emit M)).Reach System.free (s, history)) (start_key : String) :
    (history.filterMap Execution.Event.spawned?).count start_key ≤ 1 := by
  have hs : Execution.LaunchInv s history := Execution.launchInv_reach h
  refine List.nodup_iff_count_le_one.mp (hs.justified.nodup ?_) start_key
  intro before e k hj hk
  cases e <;> cases hk
  exact hj.1

/-- Attempts are counted and exclusive, and each has a process at most once, in every run of
commands in which identities are drawn once. -/
theorem attempts_accounted (h : ((system L).traced (emit L)).Reach (fun p action => Fresh p.1 action) (db, log))
    (hp : ((system L).traced (emit L)).Path (fun p action => Fresh p.1 action) (db, log) (db', log')) :
    (∀ run_id, Accounted L (db.document run_id)) ∧
      (∀ run_id run_id', run_id ≠ run_id' → ∀ a ∈ (db.document run_id).attempts,
        ∀ b ∈ (db.document run_id').attempts, a.start_key ≠ b.start_key) ∧
      (∀ event ∈ log, event.Allowed) ∧
      (∀ run_id, (db.document run_id).cancelled = true → (db'.document run_id).cancelled = true ∧
        (db'.document run_id).attempts.length = (db.document run_id).attempts.length) ∧
      ∀ s history, ((Execution.system L.host).traced (Execution.emit L.host)).Reach System.free (s, history) →
        ∀ run_id, ∀ a ∈ (db.document run_id).attempts,
          (history.filterMap Execution.Event.spawned?).count a.start_key ≤ 1 := by
  have hs : HistoryInv db log := historyInv_reach (fun _ _ h => h) h
  refine ⟨fun run_id => (hs.sound run_id).accounted, fun run_id run_id' hne a ha b hb hkey => ?_, hs.allowed,
    fun run_id hc => ?_, fun s history hh run_id a _ => spawned_once hh a.start_key⟩
  · refine hs.apart run_id run_id' hne a ha b hb (startKey_injective ?_)
    rw [← ((hs.sound run_id).bound a ha).key, ← ((hs.sound run_id').bound b hb).key, hkey]
  · exact (path_moves (p := (db, log)) (fun _ _ h => h) hs.sound hp run_id).cancelled hc

namespace Sample

/-! A plan of one task that writes and one that reviews it. -/

def library : Library where
  host := ⟨fun c => c = ' ', fun _ => "", fun text => text⟩
  printable _ := true
  digest texts := texts.getLastD ""
  eventId attempt_id _ := attempt_id

def fixture : Fixture where
  identity := "f"
  environment_sha256 := "e"
  accepts _ _ := true
  workspace attempt_id := attempt_id

def worker : PlannedTask := ⟨"w", .worker, true, ["a"], []⟩

def reviewer : PlannedTask := ⟨"v", .reviewer, true, ["a"], ["w"]⟩

def material (task : PlannedTask) (profile_id : String) : Material where
  task := task
  registration := ⟨profile_id, 1, "m"⟩
  profile := ⟨profile_id, 1, [], Execution.Sample.binding⟩
  reviewers := [⟨"q", 1, "n"⟩]
  plan_revision := 1
  checks := ["tests", "independent_review"]
  authorization_digest := "d"
  current_resources := ⟨1, "d"⟩
  repository := ⟨"/", "b"⟩
  budget := ⟨"b", 5, 90⟩
  limits := ⟨0, 2⟩
  effective_class := "c"
  input_sha256 := task.id

def materials (task_id : String) (_ : ProfileRef) : Except String Material :=
  if task_id = "w" then .ok (material worker "p") else .ok (material reviewer "q")

def plannerRun : PlannerRun := ⟨"r", "j", 1, 1, [⟨1, [], [worker, reviewer]⟩], [1]⟩

def snapshot (state : PhysicalState) (exit_code : Option Int) : Snapshot := ⟨state, exit_code, .null⟩

/-- What a command meets where the host tells `observed` of every attempt. -/
def world (attempt_id : String) (observed : Option Snapshot) : World where
  fixture := some fixture
  run := plannerRun
  material := materials
  attempt_id := attempt_id
  now := 0
  inspect _ := observed
  cancel _ := ⟨true, snapshot .exited (some 1)⟩
  baseline := ⟨"b", "i", "b"⟩
  gate _ := ⟨true, []⟩
  launch_run := plannerRun
  launch_material := materials
  launch_now := 0
  safe_path := true
  workspace_exists := false
  start := .ok (snapshot .running none)
  denied := snapshot .prepared none
  candidate_id := "c"
  log := some ⟨"review", true, ["a"], false, some .passed⟩
  evidence := ⟨"e", true⟩
  review_gate := ⟨true, []⟩
  review_run := plannerRun

def exited (exit_code : Int) : Option Snapshot := some (snapshot .exited (some exit_code))

def started : List Action :=
  [.enqueue "r" "w" ⟨"p", 1⟩ "k1" "u" (world "a1" none), .advance "r" (world "a2" none)]

def after (actions : List Action) : Db × List Event :=
  ((system library).traced (emit library)).run (Db.empty, []) actions

theorem after_reach (h : ((system library).traced (emit library)).Meets ok (Db.empty, []) actions) :
    ((system library).traced (emit library)).Reach ok (after actions) := ⟨(Db.empty, []), ⟨rfl, rfl⟩, .of_run h⟩

end Sample

/-- One attempt has a process. -/
theorem attempts_accounted_sample : ∃ (db : Db) (log : List Event),
    (db.document "r").attempts.map (fun a => (a.start_key, a.state)) = [("serial:a1", .running)] ∧
      Accounted Sample.library (db.document "r") ∧ ∀ event ∈ log, event.Allowed := by
  have hmeets : ((system Sample.library).traced (emit Sample.library)).Meets
      (fun p action => Fresh p.1 action) (Db.empty, []) Sample.started := by
    decide +kernel
  have hrunning : ((Sample.after Sample.started).1.document "r").attempts.map
      (fun a => (a.start_key, a.state)) = [("serial:a1", .running)] := by
    decide +kernel
  obtain ⟨haccounted, -, hallowed, -⟩ := attempts_accounted (Sample.after_reach hmeets) .refl
  exact ⟨_, _, hrunning, haccounted "r", hallowed⟩

end Karajan.Orchestration
