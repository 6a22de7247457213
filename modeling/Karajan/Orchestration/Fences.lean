import Karajan.Orchestration.Attempts

/-!
# Fences

The host starts an attempt only under the fence of its manifest. A check is a
copy of the first attempt at its task with the fence that attempt has by then,
so its start is denied once the task was retried.
-/

namespace Karajan.Orchestration

open Check

-- The host

open Execution (setControl Control dispatches HostManifest Activation start)

/-- The host has the attempt prepared, its control is set, and its start is asked for in time. -/
structure Asked (M : Execution.Library) (a : Attempt) (now : Rat) (t t' : Execution.Tables) : Prop where
  prepared : ∃ row, t.executions.get? a.start_key = some row ∧ row.manifest = .model a.manifest ∧
    row.cancelled = false
  control : setControl M a.id ⟨a.fence, a.manifest.authorization_ref, true⟩ t = .ok t'
  unexpired : a.activation.unexpired now = true

theorem setControl_ok {control : Control} (h : setControl M attempt_id control t = .ok t') :
    t' = { t with controls := t.controls.put attempt_id control } := by
  simp only [setControl, bind_ok, ensure_ok] at h
  obtain ⟨-, -, -, -, h⟩ := h
  split at h
  · obtain ⟨-, -, h⟩ := bind_ok.mp h
    cases h
    rfl
  · cases h; rfl

theorem Asked.current (h : Asked M a now t t') (hb : a.Bound) : ∃ row, t'.executions.get? a.start_key = some row ∧
      (!row.cancelled && dispatches (t'.controls.get? row.manifest.id) row.manifest &&
        a.activation.binds row.manifest && a.activation.unexpired now) = decide (a.fence = a.manifest.fence) := by
  obtain ⟨row, hrow, hmanifest, hlive⟩ := h.prepared
  refine ⟨row, by rw [setControl_ok h.control]; exact hrow, ?_⟩
  have hcontrol : t'.controls.get? a.id = some ⟨a.fence, a.manifest.authorization_ref, true⟩ := by
    rw [setControl_ok h.control]
    simp
  simp [hmanifest, hlive, h.unexpired, HostManifest.id, hcontrol, dispatches,
    HostManifest.fence, HostManifest.authorization_ref, HostManifest.budget_ref,
    Activation.binds, hb.manifest, hb.activation, hb.fence, hb.authorization, hb.budget]

theorem construct_ok {activation activation' : Activation} (h : activation.construct M = .ok activation') :
    activation' = activation := by
  simp only [Activation.construct, bind_ok] at h
  obtain ⟨-, -, -, -, h⟩ := h
  cases h
  rfl

theorem Asked.starts (h : Asked M a now t t') (hb : a.Bound) (hf : a.fence = a.manifest.fence) :
    start M a.start_key a.activation now t' ≠ .error .activationNotCurrent := by
  obtain ⟨row, hrow, hcurrent⟩ := h.current hb
  intro hdenied
  simp only [start] at hdenied
  rcases bind_error.mp hdenied with hfault | ⟨activation, hactivation, hdenied⟩
  · rcases bind_error.mp hfault with hfault | ⟨-, -, hfault⟩
    · cases (ensure_error.mp hfault).2
    · rcases bind_error.mp hfault with hfault | ⟨-, -, hfault⟩
      · cases (ensure_error.mp hfault).2
      · cases hfault
  cases construct_ok hactivation
  rcases bind_error.mp hdenied with hfault | ⟨-, -, hdenied⟩
  · cases (ensure_error.mp hfault).2
  rcases bind_error.mp hdenied with hfault | ⟨row', hrow', hdenied⟩
  · cases (need_error.mp hfault).2
  rw [hrow] at hrow'
  cases need_ok.mp hrow'
  split at hdenied
  · rcases bind_error.mp hdenied with hfault | ⟨-, -, hdenied⟩
    · cases (ensure_error.mp hfault).2
    · cases hdenied
  · rcases bind_error.mp hdenied with hfault | ⟨-, -, hdenied⟩
    · have hnot := (ensure_error.mp hfault).1
      rw [hcurrent] at hnot
      exact of_decide_eq_false hnot hf
    · cases hdenied

theorem Asked.denied (h : Asked M a now t t') (hb : a.Bound) (hf : a.fence ≠ a.manifest.fence)
    (hactivation : a.activation.construct M = .ok a.activation)
    (hnew : ∀ row, t.executions.get? a.start_key = some row → row.activation_digest = none) :
    start M a.start_key a.activation now t' = .error .activationNotCurrent := by
  obtain ⟨row, hrow, hcurrent⟩ := h.current hb
  have hunaccepted : row.activation_digest = none := by
    rw [setControl_ok h.control] at hrow
    exact hnew row hrow
  obtain ⟨expires_at, hexpires, -⟩ := Execution.unexpired_ok h.unexpired
  refine bind_error.mpr (.inr ⟨a.activation, hactivation, bind_error.mpr (.inr ⟨⟨⟩,
    ensure_ok.mpr (by simp [hexpires]), bind_error.mpr (.inr ⟨row, need_ok.mpr hrow, ?_⟩)⟩)⟩)
  rw [hunaccepted]
  refine bind_error.mpr (.inl (ensure_error.mpr ⟨?_, rfl⟩))
  rw [hcurrent]
  exact decide_eq_false hf

-- Runs

/-- What an attempt is launched with agrees with it, so that the host does not deny its start. -/
structure Launchable (a : Attempt) : Prop where
  fence : a.fence = a.manifest.fence ∧ a.activation.fence = a.fence
  id : a.manifest.id = a.id ∧ a.activation.attempt_id = a.id
  authorization : a.activation.authorization_ref = a.manifest.authorization_ref
  budget : a.activation.budget_ref = a.manifest.budget_ref
  start : ∀ M now t t', Asked M a now t t' →
    start M a.start_key a.activation now t' ≠ .error .activationNotCurrent

theorem launchable_iff (hb : a.Bound) : Launchable a ↔ a.fence = a.manifest.fence := by
  refine ⟨fun h => h.fence.1, fun hf => ?_⟩
  exact ⟨⟨hf, hb.fence.trans hf.symm⟩, ⟨hb.manifest, hb.activation⟩, hb.authorization, hb.budget,
    fun M now t t' h => h.starts hb hf⟩

/-- No check is queued for a task whose first attempt a retry fenced off. -/
def Retries (db : Db) (action : Action) : Prop := Fresh db action ∧ action.unretried db

theorem documents_fenced (h : (system L).Reach Retries db) : ∀ id, Fenced (db.document id) := by
  have hkept : (∀ id, Sound (db.document id)) ∧ ∀ id, Fenced (db.document id) := by
    refine h.invariant (I := fun db => (∀ id, Sound (db.document id)) ∧ ∀ id, Fenced (db.document id)) ?_ ?_
    · rintro db rfl
      refine ⟨new_sound, fun id _ a ha => ?_⟩
      simp [Db.document, Db.empty, Dict.empty, Dict.get?, Dict.lookup, Run.new] at ha
    · rintro db action ⟨hs, hfenced⟩ ⟨hfresh, hunretried⟩
      have hchanges := step_changes (L := L) hs hfresh
      exact ⟨fun id => (hchanges.moves id).sound, fun id => (hchanges.moves id).fenced hunretried (hfenced id)⟩
  exact hkept.2

/-- Where no check is queued for a task that was retried, every attempt that waits can be started. -/
theorem queued_launchable (h : (system L).Reach Retries db) (hc : (db.document run_id).cancelled = false)
    (hcalm : ∀ id, (db.document run_id).stateOf id ≠ some .invalidating)
    (ha : a ∈ (db.document run_id).attempts) (hq : a.state = .queued) : Launchable a := by
  have hs : Sound (db.document run_id) := documents_sound (fun _ _ h => h.1) h run_id
  refine (launchable_iff (hs.bound a ha)).mpr ?_
  exact ((documents_fenced h run_id) hc a ha hq).resolve_left (hcalm a.task_id)

namespace Sample

/-- The task that writes fails for its infrastructure, is retried, and its candidate is frozen. -/
def retried : List Action :=
  started ++ [.advance "r" (world "a2" (exited 75)), .retry "r" "w" "k2" "u" (world "a2" (exited 75)),
    .advance "r" (world "a3" none), .advance "r" (world "a3" (exited 0))]

def checked : List Action := retried ++ [.advance "r" { world "a3" none with safe_path := false }]

def stored (actions : List Action) : Db := (system library).run .empty actions

end Sample

open Sample (library checked stored world)

/-- The check of a task that was retried waits under a fence that the host denies. -/
theorem retried_check_denied : ∃ (db : Db) (a : Attempt), (system library).Reach Fresh db ∧
    (db.document "r").cancelled = false ∧ (∀ id, (db.document "r").stateOf id ≠ some .invalidating) ∧
    a ∈ (db.document "r").attempts ∧ a.state = .queued ∧ ¬Launchable a ∧
    ∀ M now t t', Asked M a now t t' → a.activation.construct M = .ok a.activation →
      (∀ row, t.executions.get? a.start_key = some row → row.activation_digest = none) →
      start M a.start_key a.activation now t' = .error .activationNotCurrent := by
  obtain ⟨hmeets, hc, hcalm, hfound⟩ : (system library).Meets Fresh .empty checked ∧
      ((stored checked).document "r").cancelled = false ∧
      (((stored checked).document "r").ordered.filter (·.state = .invalidating)).isEmpty = true ∧
      ((stored checked).document "r").attempts.any
        (fun a => a.state = .queued && a.fence ≠ a.manifest.fence) = true := by
    decide +kernel
  obtain ⟨a, ha, hwaits⟩ := List.any_eq_true.mp hfound
  simp only [Bool.and_eq_true, decide_eq_true_eq] at hwaits
  have hreach : (system library).Reach Fresh (stored checked) := .of_run rfl hmeets
  have hbound : a.Bound := (documents_sound (fun _ _ h => h) hreach "r").bound a ha
  refine ⟨_, a, hreach, hc, ordered_calm (List.isEmpty_iff.mp hcalm), ha, hwaits.1, ?_, ?_⟩
  · exact fun h => hwaits.2 ((launchable_iff hbound).mp h)
  · exact fun M now t t' h hactivation hnew => h.denied hbound hwaits.2 hactivation hnew

/-- The first attempt at a task waits, and can be started. -/
theorem queued_launchable_sample : ∃ (db : Db) (a : Attempt), a ∈ (db.document "r").attempts ∧
    a.state = .queued ∧ Launchable a := by
  let queued : List Action := [.enqueue "r" "w" ⟨"p", 1⟩ "k1" "u" (world "a1" none)]
  obtain ⟨hmeets, hc, hcalm, hfound⟩ : (system library).Meets Fresh .empty queued ∧
      ((stored queued).document "r").cancelled = false ∧
      (((stored queued).document "r").ordered.filter (·.state = .invalidating)).isEmpty = true ∧
      ((stored queued).document "r").attempts.any (·.state = .queued) = true := by
    decide +kernel
  obtain ⟨a, ha, hwaits⟩ := List.any_eq_true.mp hfound
  have hreach : (system library).Reach Retries (stored queued) := .of_run rfl ⟨⟨hmeets.1, trivial⟩, trivial⟩
  have hqueued : a.state = .queued := by simpa using hwaits
  exact ⟨_, a, ha, hqueued, queued_launchable hreach hc (ordered_calm (List.isEmpty_iff.mp hcalm)) ha hqueued⟩

end Karajan.Orchestration
