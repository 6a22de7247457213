import Karajan.Orchestration.Attempts

/-!
# Finality

A task whose work does not count any more stays that way, and none of its
attempts is started, unless a review of it is recorded that was still running.
-/

namespace Karajan.Orchestration

open Check
open Trace (bind_ok)
open Sample (library after after_reach)
variable {run run' next : Run}

-- The state of a run

def RunState.passed : RunState → Bool
  | .localGatePassed | .awaitingTasks | .integrationRequired => true
  | _ => false

theorem started_state : (run.started w x).state.passed = false := by
  unfold Run.started
  split
  · rfl
  · simp only; split <;> rfl

theorem launchLocked_state (h : (launchLocked w run x).result = .ok run') : run'.state.passed = false := by
  unfold launchLocked at h
  split at h
  · cases h; rfl
  · split at h
    · rw [startAttempt_ok h]; exact started_state
    · split at h
      · cases h; rfl
      · split at h
        · cases h; rfl
        · rw [startAttempt_ok h]
          exact started_state

theorem launch_state (h : (launch w run x task).result = .ok run') : run'.state.passed = false := by
  unfold launch at h
  split at h
  · cases h; rfl
  · exact launchLocked_state h

theorem completeCheck_state (h : (completeCheck w run x task exit_code).result = .ok run') :
    run'.state.passed = false := by
  simp only [completeCheck] at h
  obtain ⟨check, -, h⟩ := bind_ok.mp h
  obtain ⟨-, -, h⟩ := bind_ok.mp h
  cases h
  split <;> rfl

theorem completeReview_passed (hs : Sound run) (htasks : received.tasks = run.tasks)
    (hr : (completeReview w received x task exit_code).result = .ok run') (hp : run'.state.passed = true) :
    ∃ id, Records w run task id ∧ run'.stateOf id = some .completed := by
  simp only [completeReview] at hr
  obtain ⟨candidate, hcandidate, hr⟩ := bind_ok.mp hr
  obtain ⟨subject, hsubject, hr⟩ := bind_ok.mp hr
  obtain ⟨evidence, hevidence, hr⟩ := bind_ok.mp hr
  obtain ⟨-, -, hr⟩ := bind_ok.mp hr
  split at hr
  case isFalse hgate =>
    cases hr
    simp [Run.review, hgate, RunState.passed] at hp
  case isTrue hgate =>
    obtain ⟨plan, hplan, hr⟩ := bind_ok.mp hr
    cases hr
    obtain ⟨subject_id, hsubject_id, hget⟩ := Option.bind_eq_some_iff.mp (need_ok.mp hsubject)
    rw [htasks] at hget
    refine ⟨subject_id, ⟨Option.isSome_of_eq_some (need_ok.mp hcandidate), hsubject_id,
      ⟨subject, hget, Option.isSome_of_eq_some (need_ok.mp hevidence)⟩, hgate,
      Option.isSome_of_eq_some (need_ok.mp hplan)⟩, ?_⟩
    have hkey : subject.id = subject_id := hs.keyed _ subject hget
    obtain ⟨state, codes, remaining, heq⟩ :=
      passGate_eq ((received.review w x task).modifyTask subject.id Task.complete) plan
    rw [heq]
    let reviewed := received.review w x task
    let completed : Run := { reviewed.modifyTask subject.id Task.complete with
      state := state, reason_codes := codes, remaining_required_task_ids := remaining }
    have hstate : completed.stateOf subject_id = if subject_id = subject.id then
        (reviewed.tasks.get? subject_id).map fun _ => .completed else reviewed.stateOf subject_id :=
      stateOf_modify (f := Task.complete) rfl
    have hkept : ∃ t, reviewed.tasks.get? subject_id = some t := by
      show ∃ t, (received.tasks.modify task.id _).get? subject_id = some t
      rw [Dict.get?_modify, htasks]
      split
      · exact ⟨_, by rw [hget]; rfl⟩
      · exact ⟨subject, hget⟩
    obtain ⟨t, ht⟩ := hkept
    show completed.stateOf subject_id = _
    rw [hstate, if_pos hkey.symm, ht]
    rfl

theorem observe_passed (hs : Sound run) (hr : (observe L w run x task).result = .ok run')
    (hp : run'.state.passed = true) : ∃ id observed, w.inspect x.id = some observed ∧
      observed.exited.isSome = true ∧ x.stage = .review ∧ Records w run task id ∧
      run'.stateOf id = some .completed := by
  simp only [observe] at hr
  obtain ⟨observed, hobserved, hr⟩ := bind_ok.mp hr
  split at hr
  · cases hr
    split at hp <;> cases hp
  case h_2 exit_code hexit =>
    have hexited : observed.exited.isSome = true := by rw [hexit]; rfl
    unfold conclude at hr
    split at hr
    · rw [completeCheck_state hr] at hp
      cases hp
    case h_2 hreview =>
      have hrec : Received run x { x with physical := some (.observed observed) }
          (run.observed L { x with physical := some (.observed observed) }) :=
        observed_received ⟨rfl, rfl, rfl, rfl, rfl, rfl, rfl⟩
      obtain ⟨id, hrecords, hcompleted⟩ := completeReview_passed hs hrec.tasks hr hp
      exact ⟨id, observed, need_ok.mp hobserved, hexited, hreview, hrecords, hcompleted⟩
    · split at hr
      · cases hr; cases hp
      · simp only [freeze] at hr
        cases hr
        cases hp

theorem work_passed (hs : Sound run) (hr : (work L w run).result = .ok run') (hp : run'.state.passed = true) :
    run'.state = run.state ∨ ∃ id, Revives w run id ∧ run'.stateOf id = some .completed := by
  unfold work at hr
  split at hr
  · cases hr; exact .inl rfl
  case h_2 x hfirst =>
    obtain ⟨task, htask, hr⟩ := bind_ok.mp hr
    split at hr
    · cases hr; cases hp
    · split at hr
      · rw [launch_state hr] at hp
        cases hp
      case isFalse hstate =>
        obtain ⟨id, observed, hobserved, hexited, hreview, hrecords, hcompleted⟩ := observe_passed hs hr hp
        exact .inr ⟨id, ⟨x, task, observed, hfirst, hstate, hreview, need_ok.mp htask, hobserved, hexited,
          hrecords⟩, hcompleted⟩

theorem stale_state {rows : List (String × String)} (h : run.state.passed = false) :
    (rows.foldl (fun run row => run.invalidates row.1 row.2) run).state.passed = false := by
  induction rows generalizing run with
  | nil => exact h
  | cons row rest ih => exact ih rfl

theorem queuePending_state (h : queuePending w run = .ok next) (hp : next.state.passed = true) :
    next.state = run.state := by
  rcases queuePending_ok h with ⟨-, rfl⟩ | ⟨task, fixture, -, hqueue⟩
  · rfl
  · rcases queueCheck_ok hqueue with ⟨codes, rfl⟩ | ⟨counters, original, rfl⟩ <;> cases hp

theorem advance_passed (hs : Sound run) (hfresh : ∀ a ∈ run.attempts, a.id ≠ w.attempt_id)
    (hr : (advance L w run).result = .ok run') (hp : run'.state.passed = true) : run'.state = run.state ∨
      ∃ id, Works w run ∧ Revives w run id ∧ run'.stateOf id = some .completed := by
  unfold advance at hr
  split at hr
  · obtain ⟨stopped, -, hr⟩ := bind_ok.mp hr
    cases hr
    split at hp <;> cases hp
  case isFalse hc =>
    split at hr
    · obtain ⟨stopped, -, hr⟩ := bind_ok.mp hr
      cases hr
      split at hp <;> cases hp
    case h_2 hcalm =>
      split at hr
      · cases hr
        simp only [changeRecipe] at hp
        split at hp
        · split at hp <;> cases hp
        · cases hp
      case isFalse hrecipe =>
        split at hr
        · cases hr
          rw [List.foldl_cons, stale_state rfl] at hp
          cases hp
        case h_2 hstale =>
          split at hr
          · cases hr; cases hp
          case h_2 hungated =>
            split at hr
            · cases hr; exact .inl rfl
            case isFalse hpaused =>
              have hworks : Works w run :=
                ⟨by simpa using hc, hcalm, by simpa using hrecipe, hstale, hungated, by simpa using hpaused⟩
              obtain ⟨next, hnext, hr⟩ := bind_ok.mp hr
              have hm : Moves (fun _ => False) False (fun _ => True) run next :=
                queuePending_moves hs hworks.uncancelled hfresh trivial (fun h => h.elim) hnext
              rcases work_passed hm.sound hr hp with hstate | ⟨id, hrevives, hcompleted⟩
              · rw [hstate] at hp
                exact .inl (hstate.trans (queuePending_state hnext hp))
              · exact .inr ⟨id, hworks, queuePending_revives hnext hrevives, hcompleted⟩

-- Runs

def Run.voids (run : Run) (task_id : String) : Prop :=
  ∃ state, run.stateOf task_id = some state ∧ state.voided = true

/-- No review is recorded that completes a task whose work does not count. -/
def Sparing (db : Db) (action : Action) : Prop :=
  Fresh db action ∧ ∀ run_id task_id, action.revives db run_id task_id → ¬(db.document run_id).voids task_id

theorem Moves.voids (h : Moves revived fences draws run run')
    (hs : Sound run) (hv : run.voids task_id) (hnot : ¬revived task_id) : run'.voids task_id := by
  obtain ⟨state, hstate, hvoided⟩ := hv
  obtain ⟨t, ht, rfl⟩ := Option.map_eq_some_iff.mp hstate
  obtain ⟨t', ht', hmoves⟩ := h.tasks task_id t ht
  refine ⟨t'.state, by simp [Run.stateOf, ht'], ?_⟩
  refine (hmoves.voided hvoided).resolve_right fun hrevived => hnot ?_
  rw [← hs.keyed task_id t ht]
  exact hrevived

theorem step_voids (hs : ∀ id, Sound (db.document id)) (ha : Sparing db action)
    (hv : (db.document run_id).voids task_id) : ((step L db action).document run_id).voids task_id :=
  ((step_changes hs ha.1).moves run_id).voids (hs run_id) hv fun hrevived => ha.2 run_id task_id hrevived hv

def Event.spares (event : Event) (run : Run) (task_id : String) : Prop :=
  ∀ start_key activation, .started start_key activation ∈ event.effects →
    ∀ a ∈ run.attempts, a.task_id = task_id → a.start_key ≠ start_key

theorem WorksOn.spares (h : WorksOn w run next x) (hs : Sound run) (hfresh : ∀ a ∈ run.attempts, a.id ≠ w.attempt_id)
    (hv : run.voids task_id) : x.task_id ≠ task_id := by
  have hm := h.sound hs hfresh
  obtain ⟨state, hstate, hvoided⟩ := hm.voids hs hv (fun h => h)
  have hworking : Working next x :=
    ⟨h.first, queuePending_calm h.works.states h.queued, by rw [queuePending_cancelled h.queued, h.works.uncancelled]⟩
  obtain ⟨t, ht, -, hunvoided⟩ := hworking.own hm.sound
  rintro rfl
  simp only [Run.stateOf, ht, Option.map_some, Option.some.injEq] at hstate
  rw [hstate, hvoided] at hunvoided
  cases hunvoided

theorem emit_spares (hs : ∀ id, Sound (db.document id)) (hf : Fresh db action)
    (he : emit L db action = some event) (hv : (db.document event.run_id).voids task_id) :
    event.spares (db.document event.run_id) task_id := by
  cases he
  intro start_key activation he a ha htask hkey
  rcases transact_effects he with he | ⟨run, w, next, x, hrun, hdraws, hx, ⟨hqueued, he⟩ | ⟨-, he⟩⟩
  · exact he.elim
  · obtain ⟨hsound, hfresh⟩ := found_sound hs hf hrun hdraws
    rw [document_of_get hrun] at ha hv
    have hm := hx.sound hsound hfresh
    obtain ⟨a', ha', hsame⟩ := hm.attempts.mem ha
    have hx' : x ∈ next.attempts := List.mem_of_find?_eq_some hx.first
    have heq : a' = x := hm.sound.start_key ha' hx' (by rw [hsame.start_key, hkey, he.1])
    refine hx.spares hsound hfresh hv ?_
    rw [← heq, hsame.task_id, htask]
  · exact he.elim

theorem Event.spares_earlier {event : Event} (h : event.spares run' task_id)
    (hext : Extended run.attempts run'.attempts) : event.spares run task_id := by
  intro start_key activation he a ha htask
  obtain ⟨a', ha', hsame⟩ := hext.mem ha
  rw [← hsame.start_key]
  exact h start_key activation he a' ha' (hsame.task_id.trans htask)

/-- Work that does not count any more, and what was done since. -/
structure Final (db : Db) (log : List Event) (run_id task_id : String) (db' : Db) (log' : List Event) : Prop where
  voids : (db'.document run_id).voids task_id
  later : ∃ later, log' = log ++ later ∧ ∀ event ∈ later, event.run_id = run_id →
    event.spares (db.document run_id) task_id

theorem path_final {p p' : Db × List Event} (hs : ∀ id, Sound (p.1.document id))
    (hp : ((system L).traced (emit L)).Path (fun p action => Sparing p.1 action) p p')
    (hv : (p.1.document run_id).voids task_id) : Final p.1 p.2 run_id task_id p'.1 p'.2 := by
  have hkept : (∀ id, Moves (fun _ => True) False (fun _ => True) (p.1.document id) (p'.1.document id)) ∧
      Final p.1 p.2 run_id task_id p'.1 p'.2 := by
    refine hp.keeps (I := fun q =>
      (∀ id, Moves (fun _ => True) False (fun _ => True) (p.1.document id) (q.1.document id)) ∧
        Final p.1 p.2 run_id task_id q.1 q.2) ?_ ⟨fun id => .refl (hs id), hv, [], by simp⟩
    rintro q action ⟨hm, hvoids, later, hlog, hspares⟩ ha
    have hsound : ∀ id, Sound (q.1.document id) := fun id => (hm id).sound
    refine ⟨fun id => (hm id).trans (((step_changes hsound ha.1).moves id).mono ?_ ?_ ?_),
      step_voids hsound ha hvoids, later ++ (emit L q.1 action).toList, ?_, fun event hevent hrun => ?_⟩
    · exact fun _ _ => trivial
    · exact fun h => h.elim
    · exact fun _ _ => trivial
    · show q.2 ++ _ = _
      rw [hlog, List.append_assoc]
    · rcases List.mem_append.mp hevent with hevent | hevent
      · exact hspares event hevent hrun
      · subst hrun
        exact Event.spares_earlier (emit_spares hsound ha.1 (Option.mem_toList.mp hevent) hvoids) (hm _).attempts
  exact hkept.2

/-- Where no review is recorded that completes a task whose work does not count, a task that is
invalidated stays so, none of its attempts is started, and no run passes by it. -/
theorem invalidation_final (h : ((system L).traced (emit L)).Reach (fun p action => Sparing p.1 action) (db, log))
    (hp : ((system L).traced (emit L)).Path (fun p action => Sparing p.1 action) (db, log) (db', log'))
    (hv : (db.document run_id).stateOf task_id = some .invalidating ∨
      (db.document run_id).stateOf task_id = some .invalidated) : (db'.document run_id).voids task_id ∧
      (∃ later, log' = log ++ later ∧ ∀ event ∈ later, event.run_id = run_id →
        event.spares (db.document run_id) task_id) ∧
      ∀ w run', Sparing db' (.advance run_id w) → (advance L w (db'.document run_id)).result = .ok run' →
        run'.state.passed = true → run'.state = (db'.document run_id).state ∨
          ∃ subject_id, subject_id ≠ task_id ∧ ¬(db'.document run_id).voids subject_id ∧
            run'.stateOf subject_id = some .completed := by
  have hs : HistoryInv db log := historyInv_reach (fun _ _ h => h.1) h
  have hvoids : (db.document run_id).voids task_id := by
    rcases hv with hv | hv
    · exact ⟨.invalidating, hv, rfl⟩
    · exact ⟨.invalidated, hv, rfl⟩
  have hfinal : Final db log run_id task_id db' log' := path_final (p := (db, log)) hs.sound hp hvoids
  have hs' : HistoryInv db' log' := historyInv_reach (fun _ _ h => h.1) (h.path hp)
  refine ⟨hfinal.voids, hfinal.later, fun w run' ha hr hpassed => ?_⟩
  refine (advance_passed (hs'.sound run_id) (fresh_of (by simpa [Fresh, Action.draws] using ha.1)) hr hpassed).imp_right ?_
  rintro ⟨subject_id, hworks, hrevives, hcompleted⟩
  have hcounts := ha.2 run_id subject_id ⟨rfl, hworks, hrevives⟩
  exact ⟨subject_id, fun heq => hcounts (heq ▸ hfinal.voids), hcounts, hcompleted⟩

namespace Sample

def reviewing : List Action := started ++ [.advance "r" (world "a2" (exited 0)), .advance "r" (world "a2" none),
    .advance "r" (world "a3" (exited 0)), .enqueue "r" "v" ⟨"q", 1⟩ "k2" "u" (world "a3" none),
    .advance "r" (world "a4" none)]

def revoked (w : World) : World :=
  { w with material := fun task_id profile_ref =>
      if task_id = "w" then .error "PROFILE_NOT_ACTIVE" else materials task_id profile_ref }

/-- The task that writes is invalidated, and its attempts have stopped. -/
def invalidated : List Action :=
  reviewing ++ [.advance "r" (revoked (world "a4" none)), .advance "r" (revoked (world "a4" (exited 0)))]

end Sample

open Sample in
/-- The review of a task that is invalidated completes it, and the run passes. -/
theorem invalidated_completed : ∃ (db db' : Db) (log log' : List Event),
    ((system library).traced (emit library)).Reach (fun p action => Fresh p.1 action) (db, log) ∧
      ((system library).traced (emit library)).Path (fun p action => Fresh p.1 action) (db, log) (db', log') ∧
      (db.document "r").stateOf "w" = some .invalidated ∧ (db'.document "r").stateOf "w" = some .completed ∧
      (db'.document "r").state = .localGatePassed := by
  let review : Action := .advance "r" (revoked (world "a4" (exited 0)))
  obtain ⟨hmeets, hfresh, hinvalidated, hcompleted, hpassed⟩ :
      ((system library).traced (emit library)).Meets (fun p action => Fresh p.1 action)
        (Db.empty, []) invalidated ∧
      Fresh (after invalidated).1 review ∧
      ((after invalidated).1.document "r").stateOf "w" = some .invalidated ∧
      ((step library (after invalidated).1 review).document "r").stateOf "w" = some .completed ∧
      ((step library (after invalidated).1 review).document "r").state = .localGatePassed := by
    decide +kernel
  exact ⟨_, _, _, _, after_reach hmeets, .step .refl hfresh, hinvalidated, hcompleted, hpassed⟩

theorem sparing_of (hf : Fresh db (.advance run_id w)) (hworks : ¬Works w (db.document run_id)) :
    Sparing db (.advance run_id w) := ⟨hf, fun _ _ hrevives => absurd hrevives.2.1 hworks⟩

namespace Sample

def invalidating : List Action :=
  [.enqueue "r" "w" ⟨"p", 1⟩ "k1" "u" (world "a1" none), .advance "r" (revoked (world "a2" none))]

def stopping : Action := .advance "r" (revoked (world "a2" (exited 0)))

end Sample

open Sample in
/-- A task is invalidated, and its attempt is stopped. -/
theorem invalidation_final_sample : ∃ (db db' : Db) (log log' : List Event),
    (db.document "r").stateOf "w" = some .invalidating ∧ (db'.document "r").stateOf "w" = some .invalidated ∧
      (db'.document "r").voids "w" ∧ ∃ later, log' = log ++ later ∧ ∀ event ∈ later, event.run_id = "r" →
        event.spares (db.document "r") "w" := by
  obtain ⟨⟨hfresh, hfresh', -⟩, hstale, hfresh'', hcalm, hinvalidating, hinvalidated⟩ :
      ((system library).traced (emit library)).Meets (fun p action => Fresh p.1 action)
        (Db.empty, []) invalidating ∧
      stale (revoked (world "a2" none)) ((after (invalidating.take 1)).1.document "r") ≠ [] ∧
      Fresh (after invalidating).1 stopping ∧
      (((after invalidating).1.document "r").ordered.filter (·.state = .invalidating)).isEmpty = false ∧
      ((after invalidating).1.document "r").stateOf "w" = some .invalidating ∧
      ((step library (after invalidating).1 stopping).document "r").stateOf "w" =
        some .invalidated := by
    decide +kernel
  have hfirst : Sparing Db.empty (.enqueue "r" "w" ⟨"p", 1⟩ "k1" "u" (world "a1" none)) :=
    ⟨hfresh, fun _ _ hrevives => hrevives.elim⟩
  have hsecond : Sparing (after (invalidating.take 1)).1
      (.advance "r" (revoked (world "a2" none))) :=
    sparing_of hfresh' fun hworks => hstale hworks.approved
  have hthird : Sparing (after invalidating).1 stopping := by
    refine sparing_of hfresh'' fun hworks => ?_
    rw [hworks.calm] at hcalm
    cases hcalm
  have hreach : ((system library).traced (emit library)).Reach (fun p action => Sparing p.1 action)
      (after invalidating) := after_reach ⟨hfirst, hsecond, trivial⟩
  obtain ⟨hvoids, hlater, -⟩ := invalidation_final hreach (.step .refl hthird) (.inl hinvalidating)
  exact ⟨_, _, _, _, hinvalidating, hinvalidated, hvoids, hlater⟩

end Karajan.Orchestration
