import Karajan.Delivery.Sends

/-!
# What the tables say of a run

A run keeps its target and its pull request, which no other run has, and a
cancelled or revoked one is so for good. Only a delivery of an active run may
say that its requirements are satisfied, and only a confirmation makes it say so.
-/

namespace Karajan.Delivery

open Dict Check
variable {s s' c : Snapshot} {id : String}

-- Documents and tables

structure Agrees (L : Library) (db : Db) (s : Snapshot) : Prop where
  binding : s.binding_sha256 = L.requestDigest s.request
  target : db.run_targets.get? s.request.run_id = some s.request.target
  pr : ∀ pr, s.pr = some pr → db.run_prs.get? s.request.run_id = some ⟨s.request.repository_id, pr.id⟩
  control : s.requirements_satisfied = true → db.run_controls.get? s.request.run_id = some .active

structure Good (L : Library) (db : Db) : Prop where
  documents : ∀ id s, db.snapshot? id = some s → Agrees L db s
  targets : ∀ r r' t t', db.run_targets.get? r = some t → db.run_targets.get? r' = some t' →
    t.repository_id = t'.repository_id → t.branch = t'.branch → r = r'
  prs : ∀ r r' pr, db.run_prs.get? r = some pr → db.run_prs.get? r' = some pr → r = r'

def ControlState.Terminal (state : ControlState) : Prop := state = .cancelled ∨ state = .revoked

structure Settles (L : Library) (db db' : Db) : Prop where
  good : Good L db → Good L db'
  targets : db.run_targets.Grows (· = ·) db'.run_targets
  prs : db.run_prs.Grows (· = ·) db'.run_prs
  terminal : ∀ run_id state, state.Terminal → db.run_controls.get? run_id = some state →
    db'.run_controls.get? run_id = some state

def Quiet (db db' : Db) : Prop := ∀ id s', db'.snapshot? id = some s' →
  s'.requirements_satisfied = true → ∃ s, db.snapshot? id = some s ∧ s.requirements_satisfied = true

theorem Settles.refl (L : Library) (db : Db) : Settles L db db where
  good h := h
  targets := .refl (fun _ => rfl) _
  prs := .refl (fun _ => rfl) _
  terminal _ _ _ h := h

theorem Settles.trans (h : Settles L db db') (h' : Settles L db' db'') : Settles L db db'' where
  good hg := h'.good (h.good hg)
  targets := h.targets.trans (fun _ _ _ => Eq.trans) h'.targets
  prs := h.prs.trans (fun _ _ _ => Eq.trans) h'.prs
  terminal run_id state hstate hget := h'.terminal run_id state hstate (h.terminal run_id state hstate hget)

theorem Quiet.refl (db : Db) : Quiet db db := fun _ s h hs => ⟨s, h, hs⟩

theorem Quiet.of_eq (h : db'.deliveries = db.deliveries) : Quiet db db' := by
  intro id s hget hs
  exact ⟨s, by simpa [Db.snapshot?, h] using hget, hs⟩

theorem grows_get {d d' : Dict String ν} (h : d.Grows (· = ·) d') (hget : d.get? k = some v) :
    d'.get? k = some v := by
  obtain ⟨v', hv', rfl⟩ := h k v hget
  exact hv'

theorem Agrees.of_grows (h : Agrees L db s) (htargets : db.run_targets.Grows (· = ·) db'.run_targets)
    (hprs : db.run_prs.Grows (· = ·) db'.run_prs) (hcontrols : db'.run_controls = db.run_controls) :
    Agrees L db' s where
  binding := h.binding
  target := grows_get htargets h.target
  pr pr hpr := grows_get hprs (h.pr pr hpr)
  control hs := hcontrols ▸ h.control hs

/-- A change that satisfies nothing and leaves the pull request. -/
structure Snapshot.Alike (s s' : Snapshot) : Prop where
  id : s'.id = s.id
  request : s'.request = s.request
  binding : s'.binding_sha256 = s.binding_sha256
  pr : s'.pr = s.pr
  satisfied : s'.requirements_satisfied = true → s.requirements_satisfied = true

theorem Agrees.alike (h : Agrees L db s) (ha : s.Alike s') : Agrees L db s' where
  binding := by rw [ha.binding, ha.request, h.binding]
  target := by rw [ha.request, h.target]
  pr pr hpr := by rw [ha.request, h.pr pr (ha.pr ▸ hpr)]
  control hs := by rw [ha.request, h.control (ha.satisfied hs)]

structure Calm (L : Library) (db db' : Db) : Prop where
  settles : Settles L db db'
  quiet : Quiet db db'

theorem Calm.refl (L : Library) (db : Db) : Calm L db db := ⟨.refl L db, .refl db⟩

theorem Calm.trans (h : Calm L db db') (h' : Calm L db' db'') : Calm L db db'' where
  settles := h.settles.trans h'.settles
  quiet id s hget hs := by
    obtain ⟨middle, hmiddle, hsatisfied⟩ := h'.quiet id s hget hs
    exact h.quiet id middle hmiddle hsatisfied

theorem block_alike : s.Alike (s.block reason) := ⟨rfl, rfl, rfl, rfl, fun h => by simp [Snapshot.block] at h⟩

theorem unknown_alike : s.Alike s.unknown := ⟨rfl, rfl, rfl, rfl, fun h => by simp [Snapshot.unknown] at h⟩

theorem append_alike : s.Alike (s.append o state) := ⟨rfl, rfl, rfl, rfl, fun h => h⟩

theorem claimRunPr_ok (h : claimRunPr db request pr_id = some db') :
    Calm L db db' ∧ db'.run_controls = db.run_controls ∧
      db'.run_prs.get? request.run_id = some ⟨request.repository_id, pr_id⟩ := by
  unfold claimRunPr at h
  split at h
  case h_1 row hrow =>
    split at h
    case isTrue hsame =>
      cases h
      exact ⟨.refl L db, rfl, hsame ▸ hrow⟩
    case isFalse => cases h
  case h_2 hnone =>
    split at h
    case isFalse => cases h
    case isTrue hfree =>
      cases h
      have hgrows : db.run_prs.Grows (· = ·)
          (db.run_prs.put request.run_id ⟨request.repository_id, pr_id⟩) :=
        .put_new (fun _ => rfl) hnone
      have hother : ∀ r, db.run_prs.get? r ≠ some ⟨request.repository_id, pr_id⟩ := by
        intro r hr
        simpa using List.all_eq_true.mp hfree _ (Dict.mem_values.mpr ⟨r, hr⟩)
      refine ⟨⟨⟨fun hg => ⟨?_, hg.targets, ?_⟩, .refl (fun _ => rfl) _, hgrows, fun _ _ _ h => h⟩,
        .of_eq rfl⟩, rfl, get?_put_self⟩
      · intro id s hget
        exact (hg.documents id s hget).of_grows (.refl (fun _ => rfl) _) hgrows rfl
      · intro r r' pr hr hr'
        simp only [get?_put] at hr hr'
        split at hr
        case isTrue heq =>
          cases hr
          split at hr'
          case isTrue heq' => exact heq.symm.trans heq'
          case isFalse => exact absurd hr' (hother r')
        case isFalse =>
          split at hr'
          case isTrue => cases hr'; exact absurd hr (hother r)
          case isFalse => exact hg.prs r r' pr hr hr'

theorem openTables_calm (h : openTables db = .ok db') : Calm L db db' := by
  refine foldlM_keeps (I := fun acc : Db => Calm L db acc) ?_ h (.refl L db)
  intro acc row next _ hacc hnext
  split at hnext
  · exact hacc.trans (claimRunPr_ok (need_ok.mp hnext)).1
  · cases hnext; exact hacc

theorem claimTarget_calm (h : claimTarget db request = .ok db') :
    Calm L db db' ∧ db'.run_controls = db.run_controls ∧
      db'.run_targets.get? request.run_id = some request.target := by
  unfold claimTarget at h
  split at h
  case h_1 target hget =>
    simp only [bind_ok, ensure_ok, decide_eq_true_eq, pure_ok] at h
    obtain ⟨-, hsame, rfl⟩ := h
    exact ⟨.refl L db, rfl, hsame ▸ hget⟩
  case h_2 hnone =>
    simp only [bind_ok, ensure_ok, pure_ok] at h
    obtain ⟨-, hfree, rfl⟩ := h
    have hgrows : db.run_targets.Grows (· = ·) (db.run_targets.put request.run_id request.target) :=
      .put_new (fun _ => rfl) hnone
    have hother : ∀ r t, db.run_targets.get? r = some t → t.repository_id = request.repository_id →
        t.branch ≠ request.managed_branch := by
      intro r t hr hrepository hbranch
      have := List.all_eq_true.mp hfree t (Dict.mem_values.mpr ⟨r, hr⟩)
      simp [hrepository, hbranch] at this
    refine ⟨⟨⟨fun hg => ⟨?_, ?_, hg.prs⟩, hgrows, .refl (fun _ => rfl) _, fun _ _ _ h => h⟩,
      .of_eq rfl⟩, rfl, get?_put_self⟩
    · intro id s hget
      exact (hg.documents id s hget).of_grows hgrows (.refl (fun _ => rfl) _) rfl
    · intro r r' t t' hr hr' hrepository hbranch
      simp only [get?_put] at hr hr'
      split at hr
      case isTrue heq =>
        cases hr
        split at hr'
        case isTrue heq' => exact heq.symm.trans heq'
        · exact absurd hbranch.symm (hother r' t' hr' hrepository.symm)
      · split at hr'
        · cases hr'; exact absurd hbranch (hother r t hr hrepository)
        · exact hg.targets r r' t t' hr hr' hrepository hbranch

theorem controls_calm (db : Db) (run_id : String) :
    Calm L db { db with run_controls := db.run_controls.putNew run_id .active } := by
  have hkeep : ∀ r state, db.run_controls.get? r = some state →
      (db.run_controls.putNew run_id .active).get? r = some state := by
    intro r state hr
    simp only [get?_putNew, hr]
    split
    case isTrue heq =>
      obtain ⟨rfl, hnone⟩ := heq
      simp [hr] at hnone
    · rfl
  refine ⟨⟨fun hg => ⟨?_, hg.targets, hg.prs⟩, .refl (fun _ => rfl) _, .refl (fun _ => rfl) _,
    fun r state _ hr => hkeep r state hr⟩, .of_eq rfl⟩
  intro id s hget
  have h := hg.documents id s hget
  exact ⟨h.binding, h.target, h.pr, fun hs => hkeep _ _ (h.control hs)⟩

theorem insert_calm (htarget : db.run_targets.get? request.run_id = some request.target) (commands) :
    Calm L db { db with
      deliveries := db.deliveries.put id ⟨run_id, revision, digest, newSnapshot L mode id request control_state⟩
      commands := commands } := by
  have hget : ∀ id' s', ((db.deliveries.put id ⟨run_id, revision, digest,
        newSnapshot L mode id request control_state⟩).get? id').map (·.snapshot) = some s' →
      s' = newSnapshot L mode id request control_state ∨ db.snapshot? id' = some s' := by
    intro id' s' h
    rw [get?_put] at h
    split at h
    · exact .inl (Option.some.inj h).symm
    · exact .inr h
  refine ⟨⟨fun hg => ⟨?_, hg.targets, hg.prs⟩, .refl (fun _ => rfl) _, .refl (fun _ => rfl) _,
    fun _ _ _ h => h⟩, ?_⟩
  · intro id' s' h
    rcases hget id' s' h with rfl | hold
    · exact ⟨rfl, htarget, fun pr hpr => by simp [newSnapshot] at hpr, fun hs => by simp [newSnapshot] at hs⟩
    · have h' := hg.documents id' s' hold
      exact ⟨h'.binding, h'.target, h'.pr, h'.control⟩
  · intro id' s' h hs
    rcases hget id' s' h with rfl | hold
    · simp [newSnapshot] at hs
    · exact ⟨s', hold, hs⟩

theorem commands_calm (db : Db) (commands) : Calm L db { db with commands := commands } := by
  refine ⟨⟨fun hg => ⟨fun id s h => ?_, hg.targets, hg.prs⟩, .refl (fun _ => rfl) _,
    .refl (fun _ => rfl) _, fun _ _ _ h => h⟩, .of_eq rfl⟩
  have h' := hg.documents id s h
  exact ⟨h'.binding, h'.target, h'.pr, h'.control⟩

theorem plan_calm (h : plan L mode id request command_key principal db = .ok (db', result)) : Calm L db db' := by
  simp only [plan, bind_ok] at h
  obtain ⟨-, -, -, -, -, -, found, -, h⟩ := h
  cases found with
  | some result =>
    simp only [pair_ok] at h
    exact h.1 ▸ .refl L db
  | none =>
    simp only [bind_ok, need_ok] at h
    obtain ⟨claimed, hclaimed, control_state, -, h⟩ := h
    obtain ⟨hcalm, -, htarget⟩ := claimTarget_calm (L := L) hclaimed
    have hcontrols := hcalm.trans (controls_calm claimed request.run_id)
    split at h
    · simp only [bind_ok, pair_ok] at h
      obtain ⟨-, -, rfl, -⟩ := h
      exact hcontrols.trans (commands_calm _ _)
    · simp only [bind_ok, pair_ok] at h
      obtain ⟨-, -, rfl, -⟩ := h
      have hplanned : ({ claimed with run_controls := claimed.run_controls.putNew request.run_id .active } :
          Db).run_targets.get? request.run_id = some request.target := htarget
      exact hcontrols.trans (insert_calm hplanned _)

theorem setControl_ok (h : setControl L run_id state command_key principal db = .ok (db', result)) :
    (db' = db ∧ ∃ command, db.commands.get? (principal, command_key) = some command ∧
        command.digest = L.controlDigest run_id state) ∨
      ∃ current, db.run_controls.get? run_id = some current ∧ (current.Terminal → state = current) ∧
        db'.run_controls = db.run_controls.put run_id state ∧
        db'.run_targets = db.run_targets ∧ db'.run_prs = db.run_prs ∧
        db'.deliveries = db.deliveries.mapValues fun _ row => row.control run_id state := by
  simp only [setControl, bind_ok] at h
  obtain ⟨-, -, -, -, found, hfound, h⟩ := h
  cases found with
  | some result =>
    simp only [pair_ok] at h
    simp only [replay] at hfound
    split at hfound
    case h_1 command hcommand =>
      simp only [bind_ok, ensure_ok, decide_eq_true_eq] at hfound
      obtain ⟨-, hdigest, -⟩ := hfound
      exact .inl ⟨h.1.symm, command, hcommand, hdigest⟩
    · cases hfound
  | none =>
    simp only [bind_ok, need_ok, ensure_ok, pair_ok] at h
    obtain ⟨current, hcurrent, -, hterminal, rfl, -⟩ := h
    refine .inr ⟨current, hcurrent, ?_, rfl, rfl, rfl, rfl⟩
    rintro (rfl | rfl)
    · simpa using hterminal
    · simpa using hterminal

structure Confirmed (db : Db) (c s' : Snapshot) (pr : PullRequest) : Prop where
  current : Current db c
  request : s'.request = c.request
  binding : s'.binding_sha256 = c.binding_sha256
  ci : completed c.request pr = true
  bound : s'.pr = some pr

variable (hsound : Sound db)
include hsound

section
variable (hc : db.snapshot? id = some c)
include hc

theorem snapshot?_save (hid : s.id = c.id)
    (h : (db.save s).snapshot? id' = some s') : id' = id ∧ s' = s ∨ id' ≠ id ∧ db.snapshot? id' = some s' := by
  have hkey : s.id = id := hid.trans (keyed_of_sound hsound hc)
  simp only [Db.snapshot?, get?_save, hkey] at h
  split at h
  case isTrue heq =>
    subst heq
    obtain ⟨row, hrow, -⟩ := snapshot?_eq_some.mp hc
    simp only [hrow, Option.map_some, Option.some.injEq] at h
    exact .inl ⟨rfl, h.symm⟩
  case isFalse hne => exact .inr ⟨hne, h⟩

theorem Settles.save (hid : s.id = c.id) (hs : Good L db → Agrees L db s) : Settles L db (db.save s) where
  good hg := by
    refine ⟨?_, hg.targets, hg.prs⟩
    intro id' s' hget
    have hsame : Agrees L db s' := by
      rcases snapshot?_save hsound hc hid hget with ⟨-, rfl⟩ | ⟨-, hold⟩
      · exact hs hg
      · exact hg.documents id' s' hold
    exact { hsame with }
  targets := .refl (fun _ => rfl) _
  prs := .refl (fun _ => rfl) _
  terminal _ _ _ h := h

theorem Calm.save (ha : c.Alike s) : Calm L db (db.save s) where
  settles := .save hsound hc ha.id fun hg => (hg.documents id c hc).alike ha
  quiet id' s' hget hs := by
    rcases snapshot?_save hsound hc ha.id hget with ⟨rfl, rfl⟩ | ⟨-, hold⟩
    · exact ⟨c, hc, ha.satisfied hs⟩
    · exact ⟨s', hold, hs⟩

end

-- Pull requests of runs

-- Planning and control

theorem setControl_calm
    (h : setControl L run_id state command_key principal db = .ok (db', result)) : Calm L db db' := by
  rcases setControl_ok h with ⟨rfl, -⟩ | ⟨current, hcurrent, hterminal, hcontrols, htargets, hprs, hrows⟩
  · exact .refl L db'
  have hget : ∀ id s', db'.snapshot? id = some s' → ∃ row, db.deliveries.get? id = some row ∧
      row.run_id = row.snapshot.request.run_id ∧ s' = (row.control run_id state).snapshot := by
    intro id s' hs'
    simp only [Db.snapshot?, hrows, get?_mapValues, Option.map_map, Option.map_eq_some_iff] at hs'
    obtain ⟨row, hrow, rfl⟩ := hs'
    exact ⟨row, hrow, (hsound.keyed id row hrow).2.1, rfl⟩
  refine ⟨⟨fun hg => ⟨?_, htargets ▸ hg.targets, hprs ▸ hg.prs⟩, ?_, ?_, ?_⟩, ?_⟩
  · intro id s' hs'
    obtain ⟨row, hrow, hrun, rfl⟩ := hget id s' hs'
    have hold := hg.documents id row.snapshot (snapshot?_eq_some.mpr ⟨row, hrow, rfl⟩)
    unfold DeliveryRow.control
    split
    case isTrue heq =>
      refine ⟨hold.binding, htargets ▸ hold.target, hprs ▸ hold.pr, ?_⟩
      intro hs
      simp only [Snapshot.control, Bool.and_eq_true, decide_eq_true_eq] at hs ⊢
      simp [hcontrols, ← hrun, heq, hs.2]
    case isFalse hne =>
      refine ⟨hold.binding, htargets ▸ hold.target, hprs ▸ hold.pr, fun hs => ?_⟩
      rw [hcontrols, get?_put_of_ne (by rw [← hrun]; exact Ne.symm hne)]
      exact hold.control hs
  · exact htargets ▸ .refl (fun _ => rfl) _
  · exact hprs ▸ .refl (fun _ => rfl) _
  · intro r state' hstate hr
    rw [hcontrols, get?_put]
    split
    case isTrue heq =>
      subst heq
      obtain rfl : current = state' := by simpa [hcurrent] using hr
      rw [hterminal hstate]
    · exact hr
  · intro id s' hs' hs
    obtain ⟨row, hrow, -, rfl⟩ := hget id s' hs'
    refine ⟨row.snapshot, snapshot?_eq_some.mpr ⟨row, hrow, rfl⟩, ?_⟩
    unfold DeliveryRow.control at hs
    split at hs
    · simp only [Snapshot.control, Bool.and_eq_true] at hs
      exact hs.1
    · exact hs

-- The transactions of an advance

theorem block_calm : Calm L db (block s reason db) := by
  unfold block
  split
  case isTrue hc => exact .save hsound hc block_alike
  · exact .refl L db

theorem checkActivation_calm (h : checkActivation s db = .ok (db', outcome)) : Calm L db db' := by
  unfold checkActivation at h
  split at h
  · simp only [bind_ok, need_ok, pair_ok] at h
    obtain ⟨current, hc, rfl, -⟩ := h
    exact .save hsound hc block_alike
  · cases h
    exact .refl L db

theorem appendPush_calm (h : appendPush s o db = .ok (db', outcome)) : Calm L db db' := by
  simp only [appendPush, bind_ok, need_ok] at h
  obtain ⟨current, hc, h⟩ := h
  split at h
  · simp only [pair_ok] at h
    exact h.1 ▸ .save hsound hc block_alike
  · split at h
    · simp only [pair_ok] at h
      exact h.1 ▸ .refl L db
    · simp only [pair_ok] at h
      exact h.1 ▸ .save hsound hc append_alike

theorem appendPr_calm (h : appendPr s o existing_id db = .ok (db', outcome)) : Calm L db db' := by
  simp only [appendPr, bind_ok, need_ok] at h
  obtain ⟨current, hc, h⟩ := h
  split at h
  · simp only [pair_ok] at h
    exact h.1 ▸ .save hsound hc block_alike
  · split at h
    · simp only [pair_ok] at h
      exact h.1 ▸ .refl L db
    · split at h
      case h_1 claimed hclaimed =>
        have hclaim : Calm L db claimed ∧ claimed.deliveries = db.deliveries := by
          cases existing_id with
          | none => cases hclaimed; exact ⟨.refl L db, rfl⟩
          | some pr_id => exact ⟨(claimRunPr_ok hclaimed).1, claimRunPr_deliveries hclaimed⟩
        split at h
        · simp only [pair_ok] at h
          exact h.1 ▸ .save hsound hc block_alike
        · simp only [pair_ok] at h
          have hsound' : Sound claimed := (Moves.of_eq hclaim.2).sound hsound
          have hc' : claimed.snapshot? s.id = some current := by simpa [Db.snapshot?, hclaim.2] using hc
          exact h.1 ▸ hclaim.1.trans (.save hsound' hc' append_alike)
      · simp only [pair_ok] at h
        exact h.1 ▸ .save hsound hc block_alike

theorem recordPush_calm (h : recordPush s id observation db = .ok db') : Calm L db db' := by
  simp only [recordPush, bind_ok, need_ok] at h
  obtain ⟨c, hc, stored, -, h⟩ := h
  split at h
  · cases h; exact .refl L db
  · cases h; exact .save hsound hc ⟨rfl, rfl, rfl, rfl, fun h => h⟩

theorem reconcilePush_calm (h : reconcilePush s id observation db = .ok db') : Calm L db db' := by
  simp only [reconcilePush, bind_ok, need_ok] at h
  obtain ⟨c, hc, stored, -, h⟩ := h
  split at h
  · cases h; exact .save hsound hc ⟨rfl, rfl, rfl, rfl, fun h => h⟩
  · cases h; exact .refl L db

theorem unknown_calm (h : unknown s db = .ok db') : Calm L db db' := by
  simp only [unknown, bind_ok, need_ok] at h
  obtain ⟨c, hc, h⟩ := h
  split at h
  · cases h; exact .save hsound hc unknown_alike
  · cases h; exact .refl L db

theorem confirmPr_ok (hc : db.snapshot? s.id = some c) (hrequest : c.request = s.request)
    (h : confirmPr s id pr verification_reason observation remote_reason db = .ok db') :
    Settles L db db' ∧ ∀ id' s', db'.snapshot? id' = some s' → s'.requirements_satisfied = true →
      (id' ≠ s.id ∧ db.snapshot? id' = some s') ∨
        (id' = s.id ∧ verification_reason = none ∧ remote_reason = none ∧ Confirmed db c s' pr) := by
  simp only [confirmPr, bind_ok, need_ok] at h
  obtain ⟨c', hc', -, -, h⟩ := h
  obtain rfl : c = c' := Option.some.inj (hc.symm.trans hc')
  split at h
  · cases h
    refine ⟨(Calm.save hsound hc block_alike).settles, fun id' s' hget hs => ?_⟩
    rcases snapshot?_save hsound hc block_alike.id hget with ⟨-, rfl⟩ | ⟨hne, hold⟩
    · simp [Snapshot.block] at hs
    · exact .inl ⟨hne, hold⟩
  case h_2 claimed hclaimed =>
    cases h
    obtain ⟨hclaim, hcontrols, hbound⟩ := claimRunPr_ok (L := L) hclaimed
    have hdeliveries := claimRunPr_deliveries hclaimed
    have hsound' : Sound claimed := (Moves.of_eq hdeliveries).sound hsound
    have hcclaimed : claimed.snapshot? s.id = some c := by simpa [Db.snapshot?, hdeliveries] using hc
    generalize hreason : (activationReason claimed (c.confirmPr id pr observation)).or
      (verification_reason.or remote_reason) = reason
    have hsatisfied : (completed s.request pr && reason.isNone) = true →
        Current db c ∧ completed c.request pr = true ∧ verification_reason = none ∧
          remote_reason = none := by
      intro hs
      simp only [Bool.and_eq_true, Option.isNone_iff_eq_none] at hs
      rw [hs.2] at hreason
      simp only [Option.or_eq_none_iff] at hreason
      have hcurrent := activationReason_none hreason.1
      have hrows : claimed.ofRun c.request.run_id = db.ofRun c.request.run_id := by
        simp only [Db.ofRun, hdeliveries]
      exact ⟨⟨hcontrols ▸ hcurrent.control, hrows ▸ hcurrent.highest, hrows ▸ hcurrent.resolved⟩,
        hrequest ▸ hs.1, hreason.2⟩
    have hid : ((c.confirmPr id pr observation).conclude (completed s.request pr) reason).id = c.id := rfl
    constructor
    · refine hclaim.settles.trans (.save hsound' hcclaimed hid fun hg => ?_)
      have hold := hg.documents s.id c hcclaimed
      refine ⟨hold.binding, hold.target, ?_, ?_⟩
      · intro pr' hpr'
        cases hpr'
        show claimed.run_prs.get? c.request.run_id = some ⟨c.request.repository_id, pr.id⟩
        rw [hrequest, hbound]
      · intro hs
        show claimed.run_controls.get? c.request.run_id = some .active
        rw [hcontrols]
        exact (hsatisfied hs).1.control
    · intro id' s' hget hs
      rcases snapshot?_save hsound' hcclaimed hid hget with ⟨rfl, rfl⟩ | ⟨hne, hold⟩
      · obtain ⟨hcurrent, hci, hverified, hremote⟩ := hsatisfied hs
        exact .inr ⟨rfl, hverified, hremote, hcurrent, rfl, rfl, hci, rfl⟩
      · refine .inl ⟨hne, ?_⟩
        simpa [Db.snapshot?, hdeliveries] using hold

end Karajan.Delivery
