import Karajan.Orchestration.Advances

/-!
# What a command does outside

Attempts are stopped, or one attempt is launched or concluded: the one that an
advance works on. Where attempts are to be stopped, the rows of the outbox that
ask for it are there.
-/

namespace Karajan.Orchestration

open List Check
open Trace (mem_emit_bind mem_bind mem_foldlM mem_lift_bind bind_ok)
variable {e : Effect} {tasks : List Task}

-- Kinds of effects

def Effect.stops : Effect → Prop
  | .controlled _ control => control.dispatch_enabled = false
  | .cancelled .. => True
  | _ => False

def Effect.launches (x : Attempt) : Effect → Prop
  | .controlled attempt_id control =>
      attempt_id = x.id ∧ control = ⟨x.fence, x.manifest.authorization_ref, true⟩
  | .prepared manifest start_key => manifest = x.manifest ∧ start_key = x.start_key
  | .started start_key activation => start_key = x.start_key ∧ activation = x.activation
  | _ => False

def Effect.concludes (x : Attempt) : Effect → Prop
  | .frozen attempt_id => attempt_id = x.id
  | .checked attempt_id _ => attempt_id = x.id
  | .reviewed attempt_id _ => attempt_id = x.id
  | _ => False

theorem Effect.launches_same (hs : x.Same x') (hf : x'.fence = x.fence) (h : e.launches x') : e.launches x := by
  cases e with
  | controlled attempt_id control =>
    obtain ⟨hid, hcontrol⟩ := h
    exact ⟨hid.trans hs.id, by rw [hcontrol, hf, hs.manifest]⟩
  | prepared manifest start_key => exact ⟨h.1.trans hs.manifest, h.2.trans hs.start_key⟩
  | started start_key activation => exact ⟨h.1.trans hs.start_key, h.2.trans hs.activation⟩
  | cancelled | frozen | checked | reviewed => exact h

theorem Effect.concludes_same (hid : x'.id = x.id) (h : e.concludes x') : e.concludes x := by
  cases e with
  | frozen | checked | reviewed => exact Eq.trans h hid
  | controlled | cancelled | prepared | started => exact h

-- Stopping

theorem stop_effects (h : e ∈ (stop w a cancel_key).effects) : e.stops := by
  unfold stop at h
  split at h
  · simp at h
  · rcases mem_emit_bind.mp h with rfl | h
    · rfl
    · rw [Trace.emit_effects, mem_singleton] at h
      rw [h]
      trivial

theorem observeInvalidation_effects (h : e ∈ (observeInvalidation w run task).effects) : e.stops := by
  unfold observeInvalidation at h
  rcases mem_bind.mp h with h | ⟨outbox, -, h⟩
  · obtain ⟨outbox, a, -, -, h⟩ := mem_foldlM (I := fun _ => True) (fun _ _ _ _ _ _ => trivial) trivial h
    obtain ⟨-, -, h⟩ := mem_lift_bind.mp h
    rcases mem_bind.mp h with h | ⟨-, -, h⟩
    · exact stop_effects h
    · simp at h
  · simp at h

theorem observeInvalidations_effects (h : e ∈ (observeInvalidations w run tasks).effects) : e.stops := by
  unfold observeInvalidations at h
  rcases mem_bind.mp h with h | ⟨stopped, -, h⟩
  · obtain ⟨next, task, -, -, h⟩ := mem_foldlM (I := fun _ => True) (fun _ _ _ _ _ _ => trivial) trivial h
    exact observeInvalidation_effects h
  · simp at h

theorem cancelAttempt_effects (h : e ∈ (cancelAttempt L w run a).effects) : e.stops := by
  simp only [cancelAttempt] at h
  obtain ⟨row, -, h⟩ := mem_lift_bind.mp h
  rcases mem_bind.mp h with h | ⟨-, -, h⟩
  · unfold stopUnless at h
    split at h
    · simp at h
    · exact stop_effects h
  · obtain ⟨-, -, h⟩ := mem_lift_bind.mp h
    simp at h

theorem cancelObserve_effects (h : e ∈ (cancelObserve L w run).effects) : e.stops := by
  unfold cancelObserve at h
  rcases mem_bind.mp h with h | ⟨stopped, -, h⟩
  · obtain ⟨next, a, -, -, h⟩ := mem_foldlM (I := fun _ => True) (fun _ _ _ _ _ _ => trivial) trivial h
    exact cancelAttempt_effects h
  · simp at h

theorem retry_effects (h : e ∈ (retry w run task_id).effects) : e.stops := by
  unfold retry at h
  obtain ⟨r, -, h⟩ := mem_lift_bind.mp h
  rcases mem_emit_bind.mp h with rfl | h
  · rfl
  · simp at h

-- Working

theorem startAttempt_effects (h : e ∈ (startAttempt w run x).effects) : e.launches x := by
  simp only [startAttempt] at h
  rcases mem_emit_bind.mp h with rfl | h
  · exact ⟨rfl, rfl⟩
  · rcases mem_emit_bind.mp h with rfl | h
    · exact ⟨rfl, rfl⟩
    · simp at h

theorem launchLocked_effects (h : e ∈ (launchLocked w run x).effects) : e.launches x := by
  unfold launchLocked at h
  split at h
  · simp at h
  · split at h
    · exact startAttempt_effects h
    · split at h
      · simp at h
      · split at h
        · simp at h
        · rcases mem_emit_bind.mp h with rfl | h
          · exact ⟨rfl, rfl⟩
          · exact startAttempt_effects h

theorem launch_effects (h : e ∈ (launch w run x task).effects) : e.launches x := by
  unfold launch at h
  split at h
  · simp at h
  · refine Effect.launches_same ?_ ?_ (launchLocked_effects h)
    · exact ⟨rfl, rfl, rfl, rfl, rfl, rfl, rfl⟩
    · rfl

theorem completeCheck_effects (h : e ∈ (completeCheck w run x task exit_code).effects) : e.concludes x := by
  simp only [completeCheck] at h
  obtain ⟨candidate, -, h⟩ := mem_lift_bind.mp h
  obtain ⟨check, -, h⟩ := mem_lift_bind.mp h
  rcases mem_emit_bind.mp h with rfl | h
  · exact rfl
  · simp at h

theorem completeReview_effects (h : e ∈ (completeReview w run x task exit_code).effects) : e.concludes x := by
  simp only [completeReview] at h
  obtain ⟨candidate, -, h⟩ := mem_lift_bind.mp h
  obtain ⟨subject, -, h⟩ := mem_lift_bind.mp h
  obtain ⟨evidence, -, h⟩ := mem_lift_bind.mp h
  rcases mem_emit_bind.mp h with rfl | h
  · exact rfl
  · split at h
    · obtain ⟨plan, -, h⟩ := mem_lift_bind.mp h
      simp at h
    · simp at h

theorem freeze_effects (h : e ∈ (freeze w run x task).effects) : e.concludes x := by
  simp only [freeze] at h
  rcases mem_emit_bind.mp h with rfl | h
  · exact rfl
  · simp at h

theorem conclude_effects (h : e ∈ (conclude w run x task exit_code).effects) : e.concludes x := by
  unfold conclude at h
  split at h
  · exact completeCheck_effects h
  · exact completeReview_effects h
  · split at h
    · simp at h
    · exact freeze_effects h

theorem observe_effects (h : e ∈ (observe L w run x task).effects) : e.concludes x := by
  simp only [observe] at h
  obtain ⟨observed, -, h⟩ := mem_lift_bind.mp h
  split at h
  · simp at h
  · have hconcludes := conclude_effects h
    exact Effect.concludes_same rfl hconcludes

theorem work_effects (h : e ∈ (work L w run).effects) : ∃ x, run.attempts.find? Attempt.active = some x ∧
    (x.state = .queued ∧ e.launches x ∨ x.state ≠ .queued ∧ e.concludes x) := by
  unfold work at h
  split at h
  · simp at h
  case h_2 x hfirst =>
    refine ⟨x, hfirst, ?_⟩
    obtain ⟨task, -, h⟩ := mem_lift_bind.mp h
    split at h
    · simp at h
    · split at h
      case isTrue hstate => exact .inl ⟨hstate, launch_effects h⟩
      case isFalse hstate => exact .inr ⟨hstate, observe_effects h⟩

/-- The advance comes to its work on the attempt, with the run as its work finds it. -/
structure WorksOn (w : World) (run next : Run) (x : Attempt) : Prop where
  works : Works w run
  queued : queuePending w run = .ok next
  first : next.attempts.find? Attempt.active = some x

theorem advance_effects (h : e ∈ (advance L w run).effects) : e.stops ∨ ∃ next x, WorksOn w run next x ∧
    (x.state = .queued ∧ e.launches x ∨ x.state ≠ .queued ∧ e.concludes x) := by
  unfold advance at h
  split at h
  · exact .inl (cancelObserve_effects h)
  case isFalse hc =>
    split at h
    · exact .inl (observeInvalidations_effects h)
    case h_2 hcalm =>
      split at h
      · simp at h
      case isFalse hrecipe =>
        split at h
        · simp at h
        case h_2 hstale =>
          split at h
          · simp at h
          case h_2 hungated =>
            split at h
            · simp at h
            case isFalse hpaused =>
              have hworks : Works w run :=
                ⟨by simpa using hc, hcalm, by simpa using hrecipe, hstale, hungated, by simpa using hpaused⟩
              obtain ⟨next, hnext, h⟩ := mem_lift_bind.mp h
              obtain ⟨x, hfirst, hx⟩ := work_effects h
              exact .inr ⟨next, x, ⟨hworks, hnext, hfirst⟩, hx⟩

-- Rows that are looked for

theorem Extended.mem (h : Extended l l') (ha : a ∈ l) : ∃ a' ∈ l', a.Same a' := by
  obtain ⟨i, hi⟩ := getElem?_of_mem ha
  obtain ⟨a', ha', hsame⟩ := h i a hi
  exact ⟨a', mem_of_getElem? ha', hsame⟩

theorem stop_total (w : World) (a : Attempt) (cancel_key : String) : (stop w a cancel_key).result = .ok ⟨⟩ := by
  unfold stop
  split <;> rfl

section
variable (hs : Sound run)
include hs

theorem cancelAttempt_total (hc : run.cancelled = true) (ha : ∃ b ∈ run.attempts, a.Same b) :
    ∃ run', (cancelAttempt L w run a).result = .ok run' := by
  obtain ⟨b, hb, hsame⟩ := ha
  obtain ⟨row, hrow, hkind, hid⟩ := hs.cancels hc b hb
  obtain ⟨task, htask⟩ := hs.known b hb
  have hfound : (run.outbox.find? fun row => row.kind = .cancel && row.attempt_id = a.id).isSome := by
    refine find?_isSome.mpr ⟨row, hrow, ?_⟩
    simp [hkind, hid, hsame.id]
  obtain ⟨found, hfound⟩ := Option.isSome_iff_exists.mp hfound
  have hcontains : run.tasks.contains a.task_id = true := by
    rw [← hsame.task_id]
    simp [Dict.contains, htask]
  have hstop : ∀ done, (stopUnless done w a found.id).result = .ok ⟨⟩ := by
    intro done
    unfold stopUnless
    split
    · rfl
    · exact stop_total w a found.id
  exact ⟨_, bind_ok.mpr ⟨found, need_ok.mpr hfound, bind_ok.mpr ⟨⟨⟩, hstop _,
    bind_ok.mpr ⟨⟨⟩, ensure_ok.mpr hcontains, rfl⟩⟩⟩⟩

theorem cancelObserve_total (hc : run.cancelled = true) : ∃ run', (cancelObserve L w run).result = .ok run' := by
  obtain ⟨stopped, hstopped, -⟩ := Trace.foldlM_total (l := run.attempts) (f := cancelAttempt L w)
    (I := fun acc => Moves (fun _ => False) True (fun _ => False) run acc) (fun acc a ha hm => by
      obtain ⟨hc', hlen⟩ := hm.cancelled hc
      obtain ⟨acc', hacc⟩ := cancelAttempt_total (L := L) (w := w) hm.sound hc' (hm.attempts.mem ha)
      exact ⟨acc', hacc, hm.trans (cancelAttempt_moves hm.sound hc' (hm.same_as hs hc ha) hacc)⟩) (.refl hs)
  unfold cancelObserve
  exact ⟨_, bind_ok.mpr ⟨stopped, hstopped, rfl⟩⟩

theorem observeInvalidation_total (htask : run.stateOf task.id = some .invalidating) :
    ∃ run', (observeInvalidation w run task).result = .ok run' := by
  have hrow : ∀ a ∈ run.attempts.filter (·.task_id = task.id), ∃ row ∈ run.outbox, row.id = invalidateKey a.id := by
    intro a ha
    rw [mem_filter] at ha
    refine hs.invalidates a ha.1 ?_
    unfold Run.exempt
    rw [show a.task_id = task.id by simpa using ha.2, htask]
  unfold observeInvalidation
  obtain ⟨outbox, houtbox, -⟩ := Trace.foldlM_total (l := run.attempts.filter (·.task_id = task.id))
    (f := fun outbox a => do
      .lift (ensure (outbox.any (·.id = invalidateKey a.id)) .missing)
      stop w a (invalidateKey a.id)
      return settleFirst (·.id = invalidateKey a.id) (stoppedRow w a.id) outbox)
    (I := fun outbox => Rows run.outbox outbox) (fun outbox a ha hrows => by
      obtain ⟨row, hmem, hid⟩ := hrow a ha
      obtain ⟨row', hmem', hbrief⟩ := hrows.kept hmem
      simp only [OutboxRow.brief, Prod.mk.injEq] at hbrief
      have hany : outbox.any (·.id = invalidateKey a.id) = true :=
        List.any_eq_true.mpr ⟨row', hmem', by simp [hbrief.1, hid]⟩
      exact ⟨_, bind_ok.mpr ⟨⟨⟩, ensure_ok.mpr hany, bind_ok.mpr ⟨⟨⟩, stop_total w a _, rfl⟩⟩,
        hrows.trans (.of_brief Rows.brief_settleFirst)⟩) (.refl _)
  exact ⟨_, bind_ok.mpr ⟨outbox, houtbox, rfl⟩⟩

section
variable (hids : (tasks.map (·.id)).Nodup) (htasks : ∀ t ∈ tasks, run.stateOf t.id = some .invalidating)
include hids htasks

theorem observeInvalidation_loop_total :
    ∃ run', (tasks.foldlM (observeInvalidation w) run).result = .ok run' := by
  induction tasks generalizing run with
  | nil => exact ⟨run, rfl⟩
  | cons task rest ih =>
    have hown := htasks task mem_cons_self
    rw [map_cons, nodup_cons] at hids
    obtain ⟨next, hnext⟩ := observeInvalidation_total (w := w) hs hown
    obtain ⟨hm, hothers⟩ : Moves (fun _ => False) True (fun _ => False) run next ∧ _ :=
      observeInvalidation_moves hs hown hnext
    obtain ⟨run', hrun'⟩ := ih hm.sound hids.2 fun t ht => by
      rw [hothers t.id fun heq => hids.1 (heq ▸ mem_map_of_mem ht)]
      exact htasks t (mem_cons_of_mem _ ht)
    exact ⟨run', bind_ok.mpr ⟨next, hnext, hrun'⟩⟩

theorem observeInvalidations_total : ∃ run', (observeInvalidations w run tasks).result = .ok run' := by
  obtain ⟨stopped, hstopped⟩ := observeInvalidation_loop_total (w := w) hs hids htasks
  unfold observeInvalidations
  exact ⟨_, bind_ok.mpr ⟨stopped, hstopped, rfl⟩⟩

end

theorem advance_stops (h : run.cancelled = true ∨ ∃ id, run.stateOf id = some .invalidating) :
    ∃ run', (advance L w run).result = .ok run' := by
  unfold advance
  split
  case isTrue hc => exact cancelObserve_total hs hc
  case isFalse hc =>
    obtain ⟨id, hid⟩ := h.resolve_left hc
    split
    case h_1 task rest htasks =>
      obtain ⟨hids, hstates⟩ := invalidating_tasks hs htasks
      exact observeInvalidations_total hs hids hstates
    case h_2 hcalm => exact absurd hid (ordered_calm hcalm id)

end

end Karajan.Orchestration
