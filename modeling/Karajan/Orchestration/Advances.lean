import Karajan.Orchestration.Moves

/-!
# Advances

An advance comes to its work only where nothing is being invalidated and the
run is neither paused nor cancelled. It then works on one attempt, the first
that waits for its process or has one.
-/

namespace Karajan.Orchestration

open List Check
variable {run run' run'' : Run} {a b x x' : Attempt} {task : Task}

-- One attempt is worked on

theorem replace_replace (hid : x'.id = x.id) (hy : y.id = x.id) :
    ((run.replace x').replace y).attempts = run.attempts.map fun a => if a.id = x.id then y else a := by
  simp only [Run.replace, Run.modifyAttempt, map_map]
  refine map_congr_left fun a _ => ?_
  simp only [Function.comp_apply, hid, hy]
  by_cases h : a.id = x.id
  · simp [h, hid]
  · simp [h]

theorem acknowledged_rows : Rows run.outbox (run.outbox.map fun row =>
    if row.id = key then { row with state := .acknowledged } else row) := by
  refine .of_brief ?_
  rw [map_map]
  refine map_congr_left fun row _ => ?_
  simp only [Function.comp_apply]
  split <;> rfl

theorem startAttempt_ok (hr : (startAttempt w run a).result = .ok run') : run' = run.started w a := by
  simp only [startAttempt] at hr
  cases hr
  rfl

section
variable (h : Working run x) (hs : Sound run)
include h hs

theorem Working.moves (hattempts : run'.attempts = run.attempts.map fun a => if a.id = x.id then x' else a)
    (hsame : x.Same x') (htasks : TasksMove revived run run') (hrows : Rows run.outbox run'.outbox)
    (hcounters : run'.counters = run.counters) (hcancelled : run'.cancelled = run.cancelled)
    (hown : x'.active = true → run'.stateOf x.task_id = run.stateOf x.task_id)
    (hothers : ∀ a ∈ run.attempts, a.active = true → a.task_id ≠ x.task_id →
      run'.stateOf a.task_id = run.stateOf a.task_id) (hexempt : ∀ a ∈ run.attempts, run'.exempt a → run.exempt a)
    (hqueued : x'.state = .queued → x.state = .queued ∧ x'.fence = x.fence) :
    Moves revived fences draws run run' := by
  have hsames : ∀ a ∈ run.attempts, a.Same (if a.id = x.id then x' else a) := by
    intro a ha
    split
    case isTrue hid => exact (hs.same_id ha h.mem hid) ▸ hsame
    · exact .refl a
  have hlive : Live run' := by
    refine h.live hs hattempts hsame (fun hact => ?_) hothers
    rw [hown hact]
    exact (hs.live h.uncancelled).placed x h.mem h.active
  refine ⟨hs.relabel hattempts hsames htasks hrows hcounters (fun hc => ?_)
    (fun a ha he => .inl (hexempt a ha he)) fun _ => hlive, htasks.forth, hattempts ▸ .map hsames,
    hattempts ▸ drawn_map hsames, fun hc => ?_, fun _ hfenced _ a ha hq => ?_⟩
  · rw [hcancelled, h.uncancelled] at hc
    cases hc
  · rw [h.uncancelled] at hc
    cases hc
  · rw [hattempts] at ha
    obtain ⟨a, hmem, rfl⟩ := List.mem_map.mp ha
    refine .inr ?_
    split at hq
    case isTrue hid =>
      obtain ⟨hold, hfence⟩ := hqueued hq
      rw [if_pos hid, hfence, hsame.manifest]
      exact (hfenced h.uncancelled x h.mem hold).resolve_left (h.calm x.task_id)
    case isFalse hid =>
      rw [if_neg hid]
      exact (hfenced h.uncancelled a hmem hq).resolve_left (h.calm a.task_id)

theorem Working.own : ∃ t, run.tasks.get? x.task_id = some t ∧
    t.state.settled = false ∧ t.state.voided = false := by
  obtain ⟨state, hstate, hlive⟩ := (hs.live h.uncancelled).placed x h.mem h.active
  obtain ⟨t, ht, rfl⟩ := Option.map_eq_some_iff.mp hstate
  have hne : t.state ≠ .invalidating := by
    intro heq
    exact h.calm x.task_id (hstate.trans (by rw [heq]))
  refine ⟨t, ht, ?_⟩
  cases hs : t.state <;> simp_all [TaskState.live, TaskState.settled, TaskState.voided]

theorem Working.task_moves (ht : run.tasks.get? x.task_id = some t) (hid : t'.id = t.id)
    (hsubject : t'.subject_task_id = t.subject_task_id) : t.Moves revived t' := by
  obtain ⟨u, hu, hsettled, hvoided⟩ := h.own hs
  rw [ht] at hu
  cases hu
  exact ⟨hid, hsubject, fun h => by simp [hsettled] at h, fun h => by simp [hvoided] at h⟩

theorem Working.attempt (hattempts : run'.attempts = run.attempts.map fun a => if a.id = x.id then x' else a)
    (hsame : x.Same x') (htasks : run'.tasks = run.tasks) (hrows : Rows run.outbox run'.outbox)
    (hcounters : run'.counters = run.counters) (hcancelled : run'.cancelled = run.cancelled)
    (hqueued : x'.state = .queued → x.state = .queued ∧ x'.fence = x.fence) :
    Moves revived fences draws run run' := by
  have hstate : ∀ id, run'.stateOf id = run.stateOf id := by
    intro id
    unfold Run.stateOf
    rw [htasks]
  exact h.moves hs hattempts hsame (.of_eq htasks) hrows hcounters hcancelled (fun _ => hstate _)
    (fun _ _ _ _ => hstate _) (fun a _ he => (hstate _).symm.trans he) hqueued

theorem Working.ends (hattempts : run'.attempts = run.attempts.map fun a => if a.id = x.id then x' else a)
    (hsame : x.Same x') (htasks : run'.tasks = run.tasks.modify x.task_id f)
    (hf : ∀ t, (f t).id = t.id ∧ (f t).subject_task_id = t.subject_task_id)
    (hnext : ∀ t, (f t).state ≠ .invalidating) (hended : x'.active = false)
    (houtbox : run'.outbox = run.outbox) (hcounters : run'.counters = run.counters)
    (hcancelled : run'.cancelled = run.cancelled) : Moves revived fences draws run run' := by
  have hstate : ∀ id, run'.stateOf id =
      if id = x.task_id then (run.tasks.get? id).map fun t => (f t).state else run.stateOf id :=
    fun id => stateOf_modify htasks
  refine h.moves hs hattempts hsame
    (.modify htasks fun t ht => h.task_moves hs ht (hf t).1 (hf t).2) (houtbox ▸ .refl _)
    hcounters hcancelled (fun hact => ?_) (fun a _ _ hne => (hstate _).trans (if_neg hne))
    (fun a _ he => ?_) fun hq => ?_
  · simp [hended] at hact
  · unfold Run.exempt at he
    rw [hstate] at he
    split at he
    · obtain ⟨t, -, ht⟩ := Option.map_eq_some_iff.mp he
      exact absurd ht (hnext t)
    · exact he
  · simp [Attempt.active, hq] at hended

-- Launching

theorem started_moves (hsame : x.Same x') : Moves revived fences draws run ((run.replace x').started w x') := by
  unfold Run.started
  split
  · exact h.attempt hs (replace_replace hsame.id hsame.id) (hsame.trans ⟨rfl, rfl, rfl, rfl, rfl, rfl, rfl⟩) rfl
      (.refl _) rfl rfl fun hq => by simp at hq
  case h_2 observed _ =>
    refine h.attempt hs (replace_replace hsame.id hsame.id) (hsame.trans ⟨rfl, rfl, rfl, rfl, rfl, rfl, rfl⟩) rfl
      acknowledged_rows rfl rfl fun hq => ?_
    split at hq <;> cases hq

section
variable (hsame : x.Same x') (hstate : x'.state = x.state) (hfence : x'.fence = x.fence)
include hsame hstate hfence

theorem replaced_moves : Moves revived fences draws run (run.replace x') :=
  h.attempt hs (by rw [replace_attempts, hsame.id]) hsame rfl (.refl _) rfl rfl fun hq =>
    ⟨hstate.symm.trans hq, hfence⟩

theorem launchLocked_moves (hr : (launchLocked w (run.replace x') x').result = .ok run') : Moves revived fences draws run run' := by
  have hreplaced : Moves revived fences draws run (run.replace x') := replaced_moves h hs hsame hstate hfence
  unfold launchLocked at hr
  split at hr
  · cases hr; exact hreplaced.trans (block_moves hreplaced.sound)
  · split at hr
    · rw [startAttempt_ok hr]
      exact started_moves h hs hsame
    · split at hr
      · cases hr
        exact h.attempt hs (replace_replace hsame.id hsame.id)
          (hsame.trans ⟨rfl, rfl, rfl, rfl, rfl, rfl, rfl⟩) rfl (.refl _) rfl rfl fun hq => by simp at hq
      · split at hr
        · cases hr; exact hreplaced.trans (block_moves hreplaced.sound)
        · rw [startAttempt_ok hr]
          exact started_moves h hs hsame

end

theorem launch_moves (hr : (launch w run x task).result = .ok run') : Moves revived fences draws run run' := by
  unfold launch at hr
  split at hr
  · cases hr; exact invalidates_moves hs
  · refine launchLocked_moves h hs ?_ ?_ ?_ hr
    · exact ⟨rfl, rfl, rfl, rfl, rfl, rfl, rfl⟩
    · rfl
    · rfl

end

-- Observing

theorem receive_eq (run : Run) (row : InboxRow) : ∃ inbox, run.receive row = { run with inbox } := by
  unfold Run.receive
  split
  · exact ⟨run.inbox, rfl⟩
  · exact ⟨_, rfl⟩

/-- The run after the host's observation of an attempt was received. -/
structure Received (run : Run) (x x' : Attempt) (received : Run) : Prop where
  same : x.Same x'
  attempts : received.attempts = (run.replace x').attempts
  tasks : received.tasks = run.tasks
  outbox : received.outbox = run.outbox
  counters : received.counters = run.counters
  cancelled : received.cancelled = run.cancelled

theorem Received.replace (h : Received run x x' received) (hy : y.id = x'.id) : (received.replace y).attempts =
      run.attempts.map fun a => if a.id = x.id then y else a := by
  have hattempts : (received.replace y).attempts = ((run.replace x').replace y).attempts := by
    simp only [replace_attempts, h.attempts]
  rw [hattempts]
  exact replace_replace h.same.id (hy.trans h.same.id)

theorem observed_received (hsame : x.Same x') : Received run x x' (run.observed L x') := by
  obtain ⟨inbox, heq⟩ := receive_eq (run.replace x')
    ⟨L.eventId x'.id x'.physical, x'.id, x'.physical, none⟩
  unfold Run.observed
  rw [heq]
  exact ⟨hsame, rfl, rfl, rfl, rfl, rfl⟩

theorem Received.ends (hrec : Received run x x' received) (y : Attempt)
    (f : Task → Task) (h : Working run x) (hs : Sound run) (hid : task.id = x.task_id) (hy : x'.Same y)
    (hattempts : run'.attempts = (received.replace y).attempts)
    (htasks : run'.tasks = received.tasks.modify task.id f)
    (hf : ∀ t, (f t).id = t.id ∧ (f t).subject_task_id = t.subject_task_id)
    (hnext : ∀ t, (f t).state ≠ .invalidating) (hended : y.active = false)
    (houtbox : run'.outbox = received.outbox) (hcounters : run'.counters = received.counters)
    (hcancelled : run'.cancelled = received.cancelled) : Moves revived fences draws run run' :=
  h.ends hs (hattempts.trans (hrec.replace hy.id)) (hrec.same.trans hy)
    (by rw [htasks, hrec.tasks, hid]) hf hnext hended
    (houtbox.trans hrec.outbox) (hcounters.trans hrec.counters) (hcancelled.trans hrec.cancelled)

theorem passGate_eq (run : Run) (plan : PlanRow) : ∃ state codes remaining, run.passGate plan =
    { run with state := state, reason_codes := codes, remaining_required_task_ids := remaining } := by
  unfold Run.passGate
  simp only
  split
  · exact ⟨_, _, _, rfl⟩
  · split
    · exact ⟨_, _, _, rfl⟩
    · exact ⟨_, _, _, rfl⟩

theorem complete_moves (hs : Sound run) (hget : run.tasks.get? subject.id = some subject)
    (hsettled : subject.state.settled = true) (hnot : subject.state ≠ .invalidating)
    (hrevived : revived subject.id) : Moves revived fences draws run (run.modifyTask subject.id Task.complete) := by
  refine .task hs hget ⟨rfl, rfl, fun _ => rfl, fun _ => .inr hrevived⟩ ?_ rfl rfl rfl rfl rfl rfl
  cases hstate : subject.state <;> simp_all [TaskState.settled, TaskState.live]

/-- The review of a task can be recorded, and the candidate of its subject passes its gate. -/
structure Records (w : World) (run : Run) (task : Task) (subject_id : String) : Prop where
  candidate : task.candidate_id.isSome = true
  subject : task.subject_task_id = some subject_id
  checked : ∃ t, run.tasks.get? subject_id = some t ∧ t.check_evidence.isSome = true
  gate : w.review_gate.local_gate_passed = true
  plan : (w.review_run.plans.find? (·.plan_revision = w.review_run.active_plan_revision)).isSome = true

section
variable (hrec : Received run x x' received) (h : Working run x) (hs : Sound run) (hid : task.id = x.task_id)
include hrec h hs hid

theorem completeCheck_moves
    (hr : (completeCheck w received x' task exit_code).result = .ok run') : Moves revived fences draws run run' := by
  simp only [completeCheck] at hr
  obtain ⟨-, -, hr⟩ := Trace.bind_ok.mp hr
  obtain ⟨-, -, hr⟩ := Trace.bind_ok.mp hr
  cases hr
  refine hrec.ends { x' with state := .completed } (·.check w.evidence) h hs hid
    ⟨rfl, rfl, rfl, rfl, rfl, rfl, rfl⟩ rfl rfl (fun _ => ⟨rfl, rfl⟩) (fun t => ?_) rfl rfl rfl rfl
  simp only [Task.check]
  split <;> simp

theorem freeze_moves
    (hr : (freeze w received x' task).result = .ok run') : Moves revived fences draws run run' := by
  simp only [freeze] at hr
  cases hr
  exact hrec.ends { x' with state := .completed } (·.ready w.candidate_id) h hs hid
    ⟨rfl, rfl, rfl, rfl, rfl, rfl, rfl⟩ rfl rfl (fun _ => ⟨rfl, rfl⟩) (fun t => by simp [Task.ready]) rfl rfl rfl rfl

theorem failWorker_moves : Moves revived fences draws run (failWorker received x' task) :=
  hrec.ends { x' with state := .failed } Task.fail h hs hid ⟨rfl, rfl, rfl, rfl, rfl, rfl, rfl⟩ rfl rfl
    (fun _ => ⟨rfl, rfl⟩) (fun t => by simp [Task.fail]) rfl rfl rfl rfl

theorem review_moves : Moves revived fences draws run (received.review w x' task) := by
  refine hrec.ends { x' with state := .completed } (·.review w.evidence) h hs hid
    ⟨rfl, rfl, rfl, rfl, rfl, rfl, rfl⟩ rfl rfl (fun _ => ⟨rfl, rfl⟩) (fun t => ?_) rfl rfl rfl rfl
  simp only [Task.review]
  split <;> simp

theorem completeReview_moves (htask : run.tasks.get? x.task_id = some task)
    (hrevived : ∀ subject, Records w run task subject → revived subject)
    (hr : (completeReview w received x' task exit_code).result = .ok run') : Moves revived fences draws run run' := by
  simp only [completeReview] at hr
  obtain ⟨candidate, hcandidate, hr⟩ := Trace.bind_ok.mp hr
  obtain ⟨subject, hsubject, hr⟩ := Trace.bind_ok.mp hr
  obtain ⟨evidence, hevidence, hr⟩ := Trace.bind_ok.mp hr
  obtain ⟨-, -, hr⟩ := Trace.bind_ok.mp hr
  have hm : Moves revived fences draws run (received.review w x' task) := review_moves hrec h hs hid
  split at hr
  case isFalse => cases hr; exact hm
  case isTrue hgate =>
    obtain ⟨plan, hplan, hr⟩ := Trace.bind_ok.mp hr
    cases hr
    obtain ⟨subject_id, hsubject_id, hget⟩ := Option.bind_eq_some_iff.mp (need_ok.mp hsubject)
    rw [hrec.tasks] at hget
    have hrecords : Records w run task subject_id :=
      ⟨Option.isSome_of_eq_some (need_ok.mp hcandidate), hsubject_id,
        ⟨subject, hget, Option.isSome_of_eq_some (need_ok.mp hevidence)⟩, hgate,
        Option.isSome_of_eq_some (need_ok.mp hplan)⟩
    have hkey : subject.id = subject_id := hs.keyed _ subject hget
    obtain ⟨found, hfound, hsettled⟩ := hs.subjects _ task subject_id htask hsubject_id
    rw [hget] at hfound
    cases hfound
    have hne : subject.id ≠ task.id := by
      intro heq
      obtain ⟨own, hown, hunsettled, -⟩ := h.own hs
      rw [← hid, ← heq, hkey, hget] at hown
      cases hown
      simp [hsettled] at hunsettled
    have hnot : subject.state ≠ .invalidating := by
      intro heq
      exact h.calm subject_id (by simp [Run.stateOf, hget, heq])
    have hkept : (received.review w x' task).tasks.get? subject.id = some subject := by
      show (received.tasks.modify task.id _).get? subject.id = _
      rw [Dict.get?_modify, if_neg hne, hrec.tasks, hkey, hget]
    have hcompleted := hm.trans (complete_moves hm.sound hkept hsettled hnot
      (hkey ▸ hrevived subject_id hrecords))
    obtain ⟨state, codes, remaining, heq⟩ :=
      passGate_eq ((received.review w x' task).modifyTask subject.id Task.complete) plan
    rw [heq]
    exact hcompleted.trans (.aside hcompleted.sound rfl rfl rfl rfl rfl)

end

theorem observe_moves (h : Working run x) (hs : Sound run) (htask : run.tasks.get? x.task_id = some task)
    (hrevived : ∀ observed subject, w.inspect x.id = some observed → observed.exited.isSome = true →
      x.stage = .review → Records w run task subject → revived subject)
    (hr : (observe L w run x task).result = .ok run') : Moves revived fences draws run run' := by
  have hid : task.id = x.task_id := hs.keyed _ task htask
  simp only [observe] at hr
  obtain ⟨observed, hobserved, hr⟩ := Trace.bind_ok.mp hr
  have hsame : x.Same { x with physical := some (.observed observed) } := ⟨rfl, rfl, rfl, rfl, rfl, rfl, rfl⟩
  have hrec : Received run x { x with physical := some (.observed observed) }
      (run.observed L { x with physical := some (.observed observed) }) := observed_received hsame
  split at hr
  · cases hr
    refine h.attempt hs (hrec.replace rfl) (hsame.trans ⟨rfl, rfl, rfl, rfl, rfl, rfl, rfl⟩) hrec.tasks
      (hrec.outbox ▸ .refl _) hrec.counters hrec.cancelled fun hq => ?_
    split at hq <;> cases hq
  case h_2 exit_code hexit =>
    unfold conclude at hr
    split at hr
    · exact completeCheck_moves hrec h hs hid hr
    case h_2 hreview =>
      have hexited : observed.exited.isSome = true := by rw [hexit]; rfl
      exact completeReview_moves hrec h hs hid htask
        (fun subject => hrevived observed subject (need_ok.mp hobserved) hexited hreview) hr
    · split at hr
      · cases hr; exact failWorker_moves hrec h hs hid
      · exact freeze_moves hrec h hs hid hr

-- What an advance comes to

/-- The advance records a review of the task with the id, whose candidate passes its gate. -/
def Revives (w : World) (run : Run) (id : String) : Prop :=
  ∃ x task observed, run.attempts.find? Attempt.active = some x ∧ x.state ≠ .queued ∧
    x.stage = .review ∧ run.tasks.get? x.task_id = some task ∧ w.inspect x.id = some observed ∧
    observed.exited.isSome = true ∧ Records w run task id

theorem work_moves (hs : Sound run) (hcalm : ∀ id, run.stateOf id ≠ some .invalidating)
    (hc : run.cancelled = false) (hrevived : ∀ id, Revives w run id → revived id)
    (hr : (work L w run).result = .ok run') : Moves revived fences draws run run' := by
  unfold work at hr
  split at hr
  · cases hr; exact .refl hs
  case h_2 x hfirst =>
    have hworking : Working run x := ⟨hfirst, hcalm, hc⟩
    obtain ⟨task, htask, hr⟩ := Trace.bind_ok.mp hr
    have htask := need_ok.mp htask
    split at hr
    · cases hr; exact block_moves hs
    · split at hr
      · exact launch_moves hworking hs hr
      case isFalse hstate =>
        refine observe_moves hworking hs htask ?_ hr
        intro observed subject hobserved hexited hreview hrecords
        exact hrevived subject ⟨x, task, observed, hfirst, hstate, hreview, htask, hobserved, hexited, hrecords⟩

structure Works (w : World) (run : Run) : Prop where
  uncancelled : run.cancelled = false
  calm : run.ordered.filter (·.state = .invalidating) = []
  recipe : recipeChanged w run = false
  approved : stale w run = []
  gated : ungated w run = none
  unpaused : run.paused = false

theorem ordered_calm (h : run.ordered.filter (·.state = .invalidating) = []) :
    ∀ id, run.stateOf id ≠ some .invalidating := by
  intro id hstate
  obtain ⟨t, ht, hinvalidating⟩ := Option.map_eq_some_iff.mp hstate
  have hmem : t ∈ run.ordered := (perm_insertionSort _ _).mem_iff.mpr (Dict.mem_values.mpr ⟨id, ht⟩)
  have hnot := List.filter_eq_nil_iff.mp h t hmem
  simp [hinvalidating] at hnot

theorem Works.states (h : Works w run) : ∀ id, run.stateOf id ≠ some .invalidating := ordered_calm h.calm

theorem invalidating_tasks (hs : Sound run) (h : run.ordered.filter (·.state = .invalidating) = tasks) :
    (tasks.map (·.id)).Nodup ∧ ∀ t ∈ tasks, run.stateOf t.id = some .invalidating := by
  refine ⟨h ▸ (ordered_ids hs).sublist (List.filter_sublist.map _), fun t ht => ?_⟩
  rw [← h, mem_filter] at ht
  rw [stateOf_ordered hs ht.1]
  simpa using ht.2

/-- What the fence of a check rests on, unless no attempt is left for it. -/
def Unretried (run : Run) : Prop :=
  run.counters.any (!·.exhausted) = true → ∀ task, candidateReady run = some task →
    ∀ original, run.attempts.find? (·.task_id = task.id) = some original →
      original.fence = original.manifest.fence

theorem queuePending_ok (h : queuePending w run = .ok run') : candidateReady run = none ∧ run' = run ∨
    ∃ task fixture, candidateReady run = some task ∧ queueCheck w fixture run task = .ok run' := by
  unfold queuePending at h
  split at h
  case h_1 hnone => cases h; exact .inl ⟨hnone, rfl⟩
  case h_2 task hsome =>
    obtain ⟨fixture, -, h⟩ := bind_ok.mp h
    exact .inr ⟨task, fixture, hsome, h⟩

theorem candidateReady_some (hs : Sound run) (h : candidateReady run = some task) :
    run.tasks.get? task.id = some task ∧ task.state = .candidateReady :=
  ⟨mem_ordered hs (mem_of_find?_eq_some h), by simpa using find?_some h⟩

theorem queuePending_moves (hs : Sound run) (hc : run.cancelled = false)
    (hfresh : ∀ a ∈ run.attempts, a.id ≠ w.attempt_id) (hdraws : draws w.attempt_id) (hfences : fences → Unretried run)
    (h : queuePending w run = .ok run') : Moves revived fences draws run run' := by
  rcases queuePending_ok h with ⟨-, rfl⟩ | ⟨task, fixture, hsome, hqueue⟩
  · exact .refl hs
  · obtain ⟨hget, hready⟩ := candidateReady_some hs hsome
    exact queueCheck_moves hs hc hfresh hdraws hget hready (fun hf hleft => hfences hf hleft task hsome) hqueue

theorem queueCheck_ok (h : queueCheck w fixture run task = .ok run') :
    (∃ codes, run' = run.block codes) ∨ ∃ counters original, run' =
      { run.append (checkAttempt w fixture counters original) with
        counters := some { counters with total_attempts := counters.total_attempts + 1 }
        tasks := run.tasks.modify task.id ({ · with state := .checking })
        state := .queued } := by
  simp only [queueCheck, bind_ok] at h
  obtain ⟨counters, -, h⟩ := h
  split at h
  · cases h; exact .inl ⟨_, rfl⟩
  · simp only [bind_ok, pure_ok] at h
    obtain ⟨original, -, rfl⟩ := h
    exact .inr ⟨counters, original, rfl⟩

theorem queuePending_cancelled (h : queuePending w run = .ok run') : run'.cancelled = run.cancelled := by
  rcases queuePending_ok h with ⟨-, rfl⟩ | ⟨task, fixture, hsome, hqueue⟩
  · rfl
  · rcases queueCheck_ok hqueue with ⟨codes, rfl⟩ | ⟨counters, original, rfl⟩ <;> rfl

theorem queuePending_calm (hcalm : ∀ id, run.stateOf id ≠ some .invalidating)
    (h : queuePending w run = .ok run') : ∀ id, run'.stateOf id ≠ some .invalidating := by
  rcases queuePending_ok h with ⟨-, rfl⟩ | ⟨task, fixture, hsome, hqueue⟩
  · exact hcalm
  · rcases queueCheck_ok hqueue with ⟨codes, rfl⟩ | ⟨counters, original, rfl⟩
    · exact hcalm
    · intro id hstate
      rw [stateOf_modify (f := ({ · with state := .checking })) rfl] at hstate
      split at hstate
      · obtain ⟨t, -, ht⟩ := Option.map_eq_some_iff.mp hstate
        cases ht
      · exact hcalm id hstate

theorem get?_checking {id : String} {d : Dict String Task}
    (h : (d.modify task_id fun t => { t with state := .checking }).get? id = some t) :
    ∃ u, d.get? id = some u ∧ t.candidate_id = u.candidate_id ∧ t.subject_task_id = u.subject_task_id ∧
      t.check_evidence = u.check_evidence := by
  rw [Dict.get?_modify] at h
  split at h
  · obtain ⟨u, hu, rfl⟩ := Option.map_eq_some_iff.mp h
    exact ⟨u, hu, rfl, rfl, rfl⟩
  · exact ⟨t, h, rfl, rfl, rfl⟩

theorem queuePending_revives {id : String} (h : queuePending w run = .ok run')
    (hr : Revives w run' id) : Revives w run id := by
  rcases queuePending_ok h with ⟨-, rfl⟩ | ⟨task, fixture, hsome, hqueue⟩
  · exact hr
  · obtain ⟨x, own, observed, hfirst, hstate, hreview, hown, hobserved, hexited, hrecords⟩ := hr
    rcases queueCheck_ok hqueue with ⟨codes, rfl⟩ | ⟨counters, original, rfl⟩
    · exact ⟨x, own, observed, hfirst, hstate, hreview, hown, hobserved, hexited, hrecords.candidate,
        hrecords.subject, hrecords.checked, hrecords.gate, hrecords.plan⟩
    · have hfirst' : run.attempts.find? Attempt.active = some x := by
        have happend : (run.attempts ++ [checkAttempt w fixture counters original]).find? Attempt.active = some x :=
          hfirst
        rw [find?_append] at happend
        rcases Option.or_eq_some_iff.mp happend with hfound | ⟨-, hnew⟩
        · exact hfound
        · have hx := List.mem_singleton.mp (mem_of_find?_eq_some hnew)
          rw [hx] at hreview
          cases hreview
      obtain ⟨t, ht, hown'⟩ := get?_checking hown
      obtain ⟨subject, hsubject, hevidence⟩ := hrecords.checked
      obtain ⟨u, hu, hsame⟩ := get?_checking hsubject
      refine ⟨x, t, observed, hfirst', hstate, hreview, ht, hobserved, hexited, ?_, ?_, ?_, hrecords.gate,
        hrecords.plan⟩
      · exact hown'.1 ▸ hrecords.candidate
      · exact hown'.2.1 ▸ hrecords.subject
      · exact ⟨u, hu, hsame.2.2 ▸ hevidence⟩

theorem stale_moves {rows : List (String × String)} (hs : Sound run) :
    Moves revived fences draws run (rows.foldl (fun run row => run.invalidates row.1 row.2) run) :=
  .foldl (fun _ _ => invalidates_moves) hs

theorem advance_moves (hs : Sound run) (hfresh : ∀ a ∈ run.attempts, a.id ≠ w.attempt_id)
    (hdraws : draws w.attempt_id) (hfences : fences → Works w run → Unretried run)
    (hrevived : ∀ id, Works w run → Revives w run id → revived id)
    (hr : (advance L w run).result = .ok run') : Moves revived fences draws run run' := by
  unfold advance at hr
  split at hr
  case isTrue hc => exact cancelObserve_moves hs hc hr
  case isFalse hc =>
    split at hr
    case h_1 task rest htasks =>
      obtain ⟨hids, hstates⟩ := invalidating_tasks hs htasks
      exact observeInvalidations_moves hs hids hstates hr
    case h_2 hcalm =>
      split at hr
      · cases hr; exact changeRecipe_moves hs
      case isFalse hrecipe =>
        split at hr
        · cases hr; exact stale_moves hs
        case h_2 hstale =>
          split at hr
          case h_1 hungated => cases hr; exact ungated_moves hs hungated
          case h_2 hungated =>
            split at hr
            · cases hr; exact observePaused_moves hs
            case isFalse hpaused =>
              have hworks : Works w run :=
                ⟨by simpa using hc, hcalm, by simpa using hrecipe, hstale, hungated, by simpa using hpaused⟩
              obtain ⟨next, hnext, hr⟩ := Trace.bind_ok.mp hr
              have hm : Moves revived fences draws run next := queuePending_moves hs hworks.uncancelled hfresh hdraws
                (fun hf => hfences hf hworks) hnext
              refine hm.trans (work_moves hm.sound (queuePending_calm hworks.states hnext) ?_
                (fun id hr => hrevived id hworks (queuePending_revives hnext hr)) hr)
              rw [queuePending_cancelled hnext]
              exact hworks.uncancelled

end Karajan.Orchestration
