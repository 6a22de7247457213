import Karajan.Execution.Launches

/-!
# Captures

The guard of a capture reads the row, its activation and its control in one
transaction. What it found is kept by every later step of the host, so the
receipt of an attempt never changes.
-/

namespace Karajan.Execution

open Check
variable {s : State} {t : Tables}

theorem Row.captureReady_ran {row : Row} (h : row.captureReady = true) : row.Ran := by
  simp only [captureReady, Bool.and_eq_true, Bool.or_eq_true, decide_eq_true_eq, Bool.not_eq_true',
    Bool.and_eq_false_imp] at h
  obtain ⟨⟨⟨⟨hrunning | hfinished, -⟩, -⟩, -⟩, hcode⟩ := h
  · exact .inl hrunning
  · have hsome := hcode hfinished
    exact .inr (by simpa using hsome)

structure Captured (attempt_id : String) (fence : Int) (authorization_ref : String) (t : Tables)
    (receipt : FenceReceipt) (row : Row) (activation : Activation) : Prop where
  found : t.attempt? attempt_id = some (receipt.prepared_id, row)
  ran : row.Ran
  live : row.cancelled = false
  accepted : row.activation = some activation
  named : row.manifest.id = attempt_id ∧ row.manifest.fence = fence ∧
    row.manifest.authorization_ref = authorization_ref
  current : dispatches (t.controls.get? attempt_id) row.manifest = true
  receipt : receipt = ⟨row.manifest.id, receipt.prepared_id, row.manifest.fence,
    row.manifest.authorization_ref, row.manifest.subject, activation.id, false⟩

theorem currentFenceGuard_ok
    (h : currentFenceGuard L attempt_id fence authorization_ref expected t = .ok receipt) :
    ∃ row activation, Captured attempt_id fence authorization_ref t receipt row activation := by
  simp only [currentFenceGuard, bind_ok, ensure_ok, need_ok, Bool.and_eq_true, decide_eq_true_eq] at h
  obtain ⟨_, -, ⟨key, row⟩, hfound, _, hready, activation, hactivation, _, ⟨-, hid⟩, h⟩ := h
  have hlast : (ensure (!row.cancelled && (t.controls.get? attempt_id).any (·.dispatch_enabled) &&
      currentFence (t.controls.get? attempt_id) row.manifest fence &&
      authorization_ref = row.manifest.authorization_ref) Fault.captureFenceNotCurrent >>= fun _ =>
      pure (⟨row.manifest.id, key, row.manifest.fence, row.manifest.authorization_ref,
        row.manifest.subject, activation.id, false⟩ : FenceReceipt)) = .ok receipt := by
    cases expected with
    | none => exact h
    | some expected => exact (bind_ok.mp h).choose_spec.2
  simp only [bind_ok, ensure_ok, pure_ok, Bool.and_eq_true, decide_eq_true_eq, Bool.not_eq_true'] at hlast
  obtain ⟨_, ⟨⟨⟨hlive, henabled⟩, hfence⟩, hauthorization⟩, rfl⟩ := hlast
  unfold currentFence at hfence
  cases hcontrol : t.controls.get? attempt_id with
  | none => rw [hcontrol] at hfence; cases hfence
  | some control =>
    simp only [hcontrol, Bool.and_eq_true, decide_eq_true_eq] at hfence
    rw [hcontrol] at henabled
    refine ⟨row, activation, hfound, row.captureReady_ran hready, hlive, hactivation,
      ⟨hid, hfence.1.1.symm, hauthorization.symm⟩, ?_, rfl⟩
    simp only [dispatches, hcontrol, Bool.and_eq_true, decide_eq_true_eq]
    exact ⟨⟨henabled, hfence.1.2.symm⟩, hfence.2⟩

/-- Who may capture an attempt's work is the one its tool was started for: nothing withdrew it, its
control is in force, and every later capture gets the same receipt. -/
theorem captures_current (h : ((system L).traced (emit L)).Reach System.free (s, log))
    (hp : ((system L).traced (emit L)).Path System.free (s, log) (s', log'))
    (hc : currentFenceGuard L attempt_id fence authorization_ref expected s.tables = .ok receipt) :
    (∃ row activation, Captured attempt_id fence authorization_ref s.tables receipt row activation) ∧
      receipt.prepared_id ∈ log.filterMap Event.spawned? ∧ receipt.prepared_id ∈ log.filterMap Event.authorised? ∧
      (∀ found, Event.cancelled receipt.prepared_id found ∉ log) ∧
      ∀ fence' authorization_ref' expected' receipt', currentFenceGuard L attempt_id fence' authorization_ref'
        expected' s'.tables = .ok receipt' → receipt' = receipt := by
  have hs : LaunchInv s log := launchInv_reach h
  obtain ⟨row, activation, hcaptured⟩ := currentFenceGuard_ok hc
  obtain ⟨hrow, hattempt⟩ := attempt?_some hcaptured.found
  have hran := hs.recorded.ran _ _ hrow hcaptured.ran
  refine ⟨⟨row, activation, hcaptured⟩, authorised_spawned hs.justified hran, hran, ?_, ?_⟩
  · intro found hm
    obtain ⟨row', hrow', hcancelled, -⟩ := hs.recorded.withdrawn _ _ hm
    rw [hrow] at hrow'
    cases hrow'
    rw [hcaptured.live] at hcancelled
    cases hcancelled
  · intro fence' authorization_ref' expected' receipt' hc'
    obtain ⟨row', activation', hcaptured'⟩ := currentFenceGuard_ok hc'
    obtain ⟨hs', hlater⟩ := path_later (p := (s, log)) hs hp
    -- the row of the attempt is still there, under the same key
    obtain ⟨later, hfound, hbound⟩ := hlater.rows _ row hrow
    have hsame := hs'.recorded.sound.attempt? hfound
    rw [hbound.attempt_id, hattempt, hcaptured'.found] at hsame
    obtain ⟨hkey, rfl⟩ := Prod.mk.inj (Option.some.inj hsame)
    have hactivation := hbound.activation activation hcaptured.accepted
    rw [hcaptured'.accepted] at hactivation
    cases hactivation
    rw [hcaptured'.receipt, hcaptured.receipt, hkey, hbound.manifest]

open Sample (library after launched)

/-- The work of the attempt that was launched may be captured. -/
theorem captures_current_sample : ∃ (log : List Event) (receipt : FenceReceipt),
    receipt.attempt_id = "a1" ∧ receipt.prepared_id ∈ log.filterMap Event.authorised? := by
  have hsome : (currentFenceGuard library "a1" 1 "auth" none (after launched).1.tables).toOption.isSome = true := by
    decide +kernel
  cases hc : currentFenceGuard library "a1" 1 "auth" none (after launched).1.tables with
  | error fault => rw [hc] at hsome; cases hsome
  | ok receipt =>
    obtain ⟨⟨row, activation, hcaptured⟩, -, hauthorised, -⟩ :=
      captures_current (Sample.after_reach launched) .refl hc
    refine ⟨_, receipt, ?_, hauthorised⟩
    rw [hcaptured.receipt]
    exact hcaptured.named.1

end Karajan.Execution
