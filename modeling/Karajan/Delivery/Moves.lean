import Karajan.Delivery.Advance

/-!
# What a transaction does to the deliveries

A document only goes on: its operations keep their place, and one that is
confirmed stays so. Whatever wrote it last, a delivery has its push first and
its pull request second, and of the deliveries of a run at most one may have
sent something whose result is not known.
-/

namespace Karajan.Delivery

open List Dict Check
variable {db db' : Db} {s s' s'' c c' : Snapshot} {o o' : Operation} {id : String}

-- Operations

structure Operation.Kept (o o' : Operation) : Prop where
  id : o'.id = o.id
  step : o'.step = o.step
  confirmed : o.state = .confirmed → o'.state = .confirmed

theorem Operation.Kept.refl (o : Operation) : o.Kept o := ⟨rfl, rfl, fun h => h⟩

theorem Operation.Kept.trans (h : o.Kept o') (h' : o'.Kept o'') : o.Kept o'' where
  id := h'.id.trans h.id
  step := h'.step.trans h.step
  confirmed hc := h'.confirmed (h.confirmed hc)

def Extends (l l' : List Operation) : Prop := ∀ (i : Nat) o, l[i]? = some o → ∃ o', l'[i]? = some o' ∧ o.Kept o'

namespace Extends

theorem refl (l : List Operation) : Extends l l := fun _ o h => ⟨o, h, .refl o⟩

theorem trans (h : Extends l l') (h' : Extends l' l'') : Extends l l'' := by
  intro i o ho
  obtain ⟨o', ho', hk⟩ := h i o ho
  obtain ⟨o'', ho'', hk'⟩ := h' i o' ho'
  exact ⟨o'', ho'', hk.trans hk'⟩

theorem append (l rest : List Operation) : Extends l (l ++ rest) := by
  intro i o ho
  exact ⟨o, by rw [List.getElem?_append_left (List.getElem?_eq_some_iff.mp ho).1, ho], .refl o⟩

theorem updateFirst (hf : ∀ o : Operation, o.Kept (f o)) (id : String)
    (l : List Operation) : Extends l (updateFirst id f l) := by
  induction l with
  | nil => exact .refl []
  | cons o rest ih =>
    unfold Delivery.updateFirst
    split
    · intro i o' ho'
      cases i with
      | zero => cases ho'; exact ⟨f o, rfl, hf o⟩
      | succ i => exact ⟨o', ho', .refl o'⟩
    · intro i o' ho'
      cases i with
      | zero => exact ⟨o', ho', .refl o'⟩
      | succ i => exact ih i o' ho'

theorem updateHead (hl : l.head? = some o) (ho : o.id = id)
    (hf : o.Kept (f o)) : Extends l (Delivery.updateFirst id f l) := by
  cases l with
  | nil => cases hl
  | cons first rest =>
    cases hl
    intro i o' ho'
    rw [Delivery.updateFirst, if_pos ho]
    cases i with
    | zero => cases ho'; exact ⟨f o, rfl, hf⟩
    | succ i => exact ⟨o', ho', .refl o'⟩

theorem head (h : Extends l l') (hl : l.head? = some o) : ∃ o', l'.head? = some o' ∧ o.Kept o' := by
  rw [head?_eq_getElem?] at hl
  obtain ⟨o', ho', hk⟩ := h 0 o hl
  exact ⟨o', by rw [head?_eq_getElem?, ho'], hk⟩

theorem mem (h : Extends l l') (hl : o ∈ l) : ∃ o' ∈ l', o.Kept o' := by
  obtain ⟨i, hi⟩ := getElem?_of_mem hl
  obtain ⟨o', ho', hk⟩ := h i o hi
  exact ⟨o', mem_of_getElem? ho', hk⟩

end Extends

-- Documents

/-- The push comes first, and the pull request after it is confirmed. -/
def Sequenced (s : Snapshot) : Prop :=
  s.operations = [] ∨ (∃ push, s.operations = [push] ∧ push.step = .push) ∨
    ∃ push pr, s.operations = [push, pr] ∧ push.step = .push ∧ push.state = .confirmed ∧
      pr.step = .pr ∧ (pr.state = .confirmed → s.pr.isSome)

structure Snapshot.Before (s s' : Snapshot) : Prop where
  id : s'.id = s.id
  request : s'.request = s.request
  operations : Extends s.operations s'.operations

theorem Snapshot.Before.refl (s : Snapshot) : s.Before s := ⟨rfl, rfl, .refl _⟩

theorem Snapshot.Before.trans (h : s.Before s') (h' : s'.Before s'') : s.Before s'' :=
  ⟨h'.id.trans h.id, h'.request.trans h.request, h.operations.trans h'.operations⟩

structure Snapshot.Beside (s s' : Snapshot) : Prop where
  id : s'.id = s.id
  request : s'.request = s.request
  operations : s'.operations = s.operations
  pr : s'.pr = s.pr

theorem Snapshot.Beside.before (h : s.Beside s') : s.Before s' := ⟨h.id, h.request, h.operations ▸ .refl _⟩

theorem Snapshot.Beside.sequenced (h : s.Beside s') (hs : Sequenced s) : Sequenced s' := by
  unfold Sequenced
  rw [h.operations, h.pr]
  exact hs

theorem Snapshot.Beside.unresolved (h : s.Beside s') : s'.unresolved = s.unresolved := by
  unfold Snapshot.unresolved
  rw [h.operations]

theorem block_beside : s.Beside (s.block reason) := ⟨rfl, rfl, rfl, rfl⟩

theorem control_beside : s.Beside (s.control state) := ⟨rfl, rfl, rfl, rfl⟩

theorem unknown_beside : s.Beside s.unknown := ⟨rfl, rfl, rfl, rfl⟩

theorem conclude_beside : s.Beside (s.conclude satisfied reason) := ⟨rfl, rfl, rfl, rfl⟩

-- The deliveries of a run

structure Sound (db : Db) : Prop where
  keyed : ∀ id row, db.deliveries.get? id = some row → row.snapshot.id = id ∧
    row.run_id = row.snapshot.request.run_id ∧ row.revision = row.snapshot.request.delivery_revision
  sequenced : ∀ id row, db.deliveries.get? id = some row → Sequenced row.snapshot
  revisions : ∀ id id' row row', db.deliveries.get? id = some row →
    db.deliveries.get? id' = some row' → row.run_id = row'.run_id → row.revision = row'.revision →
    id = id'
  one_unresolved : ∀ id id' row row', db.deliveries.get? id = some row →
    db.deliveries.get? id' = some row' → row.run_id = row'.run_id →
    row.snapshot.unresolved = true → row'.snapshot.unresolved = true → id = id'

structure DeliveryRow.Later (row row' : DeliveryRow) : Prop where
  run_id : row'.run_id = row.run_id
  revision : row'.revision = row.revision
  snapshot : row.snapshot.Before row'.snapshot

theorem DeliveryRow.Later.refl (row : DeliveryRow) : row.Later row := ⟨rfl, rfl, .refl _⟩

variable {row : DeliveryRow}

theorem DeliveryRow.Later.trans (h : row.Later row') (h' : row'.Later row'') : row.Later row'' :=
  ⟨h'.run_id.trans h.run_id, h'.revision.trans h.revision, h.snapshot.trans h'.snapshot⟩

structure Moves (db db' : Db) : Prop where
  rows : db.deliveries.Grows DeliveryRow.Later db'.deliveries
  sound : Sound db → Sound db'

theorem Moves.of_eq (h : db'.deliveries = db.deliveries) : Moves db db' where
  rows := by
    rw [h]
    exact .refl DeliveryRow.Later.refl _
  sound hs := by
    obtain ⟨hkeyed, hsequenced, hrevisions, hone⟩ := hs
    exact ⟨h ▸ hkeyed, h ▸ hsequenced, h ▸ hrevisions, h ▸ hone⟩

theorem Moves.refl (db : Db) : Moves db db := .of_eq rfl

theorem snapshot?_eq_some : db.snapshot? id = some s ↔
    ∃ row, db.deliveries.get? id = some row ∧ row.snapshot = s := by
  simp [Db.snapshot?]

theorem get?_save : (db.save s).deliveries.get? id =
    if id = s.id then (db.deliveries.get? id).map ({ · with snapshot := s }) else
      db.deliveries.get? id := get?_modify

/-- One document is written over; it may leave something unresolved that it had not before only
where no other delivery of the run does. -/
theorem Moves.save (hc : db.snapshot? s.id = some c) (hb : c.Before s)
    (hd : db'.deliveries = (db.save s).deliveries) (hs : Sequenced c → Sequenced s)
    (ho : s.unresolved = true → c.unresolved = true ∨ ∀ id row, db.deliveries.get? id = some row →
      row.run_id = s.request.run_id → row.snapshot.unresolved = true → id = s.id) : Moves db db' := by
  obtain ⟨own, hown, rfl⟩ := snapshot?_eq_some.mp hc
  have hget : ∀ id row', db'.deliveries.get? id = some row' →
      id = s.id ∧ row' = { own with snapshot := s } ∨ id ≠ s.id ∧ db.deliveries.get? id = some row' := by
    intro id row' hrow'
    rw [hd, get?_save] at hrow'
    split at hrow'
    case isTrue hid =>
      subst hid
      rw [hown] at hrow'
      cases hrow'
      exact .inl ⟨rfl, rfl⟩
    case isFalse hid => exact .inr ⟨hid, hrow'⟩
  refine ⟨?_, fun hsound => ⟨?_, ?_, ?_, ?_⟩⟩
  · intro id row hrow
    by_cases hid : id = s.id
    · subst hid
      rw [hown] at hrow
      cases hrow
      exact ⟨{ own with snapshot := s }, by rw [hd, get?_save, if_pos rfl, hown]; rfl, rfl, rfl, hb⟩
    · exact ⟨row, by rw [hd, get?_save, if_neg hid, hrow], .refl row⟩
  · intro id row' hrow'
    rcases hget id row' hrow' with ⟨rfl, rfl⟩ | ⟨-, hold⟩
    · obtain ⟨-, hrun, hrevision⟩ := hsound.keyed _ own hown
      exact ⟨rfl, hrun.trans (by rw [hb.request]), hrevision.trans (by rw [hb.request])⟩
    · exact hsound.keyed id row' hold
  · intro id row' hrow'
    rcases hget id row' hrow' with ⟨rfl, rfl⟩ | ⟨-, hold⟩
    · exact hs (hsound.sequenced _ own hown)
    · exact hsound.sequenced id row' hold
  · intro id id' row row' hrow hrow' hrun hrevision
    rcases hget id row hrow with ⟨rfl, rfl⟩ | ⟨-, hold⟩
    · rcases hget id' row' hrow' with ⟨rfl, rfl⟩ | ⟨-, hold'⟩
      · rfl
      · exact hsound.revisions _ _ own row' hown hold' hrun hrevision
    · rcases hget id' row' hrow' with ⟨rfl, rfl⟩ | ⟨-, hold'⟩
      · exact hsound.revisions _ _ row own hold hown hrun hrevision
      · exact hsound.revisions _ _ row row' hold hold' hrun hrevision
  · have hrequest : own.run_id = s.request.run_id := by
      rw [hb.request]
      exact (hsound.keyed _ own hown).2.1
    have hsole : ∀ id row, db.deliveries.get? id = some row → row.run_id = own.run_id →
        s.unresolved = true → row.snapshot.unresolved = true → id = s.id := by
      intro id row hrow hrun hunresolved hother
      rcases ho hunresolved with hold | halone
      · exact hsound.one_unresolved id s.id row own hrow hown hrun hother hold
      · exact halone id row hrow (hrun.trans hrequest) hother
    intro id id' row row' hrow hrow' hrun hu hu'
    rcases hget id row hrow with ⟨rfl, rfl⟩ | ⟨-, hold⟩
    · rcases hget id' row' hrow' with ⟨rfl, rfl⟩ | ⟨-, hold'⟩
      · rfl
      · exact (hsole id' row' hold' hrun.symm hu hu').symm
    · rcases hget id' row' hrow' with ⟨rfl, rfl⟩ | ⟨-, hold'⟩
      · exact hsole id row hold hrun hu' hu
      · exact hsound.one_unresolved _ _ row row' hold hold' hrun hu hu'

theorem Moves.beside (hc : db.snapshot? s.id = some c) (hb : c.Beside s)
    (hd : db'.deliveries = (db.save s).deliveries) : Moves db db' :=
  .save hc hb.before hd hb.sequenced fun hu => .inl (hb.unresolved ▸ hu)

-- Planning and control

theorem claimTarget_ok (h : claimTarget db request = .ok db') : db'.deliveries = db.deliveries := by
  unfold claimTarget at h
  split at h
  · simp only [bind_ok, pure_ok] at h
    obtain ⟨-, -, rfl⟩ := h
    rfl
  · simp only [bind_ok, pure_ok] at h
    obtain ⟨-, -, rfl⟩ := h
    rfl

theorem claimRunPr_deliveries (h : claimRunPr db request pr_id = some db') : db'.deliveries = db.deliveries := by
  unfold claimRunPr at h
  split at h
  · split at h <;> cases h; rfl
  · split at h <;> cases h; rfl

theorem plan_new (hfree : db.deliveries.get? id = none)
    (hnew : ∀ id row, db.deliveries.get? id = some row → row.run_id = request.run_id →
      row.revision ≠ request.delivery_revision)
    (hd : db'.deliveries = db.deliveries.put id ⟨request.run_id, request.delivery_revision, digest,
      newSnapshot L mode id request control_state⟩) : Moves db db' := by
  have hget : ∀ id' row', db'.deliveries.get? id' = some row' → id' = id ∧
      row' = ⟨request.run_id, request.delivery_revision, digest,
        newSnapshot L mode id request control_state⟩ ∨ db.deliveries.get? id' = some row' := by
    intro id' row' hrow'
    rw [hd, get?_put] at hrow'
    split at hrow'
    case isTrue hid => cases hrow'; exact .inl ⟨hid.symm, rfl⟩
    · exact .inr hrow'
  refine ⟨hd ▸ .put_new DeliveryRow.Later.refl hfree, fun hsound => ⟨?_, ?_, ?_, ?_⟩⟩
  · intro id' row' hrow'
    rcases hget id' row' hrow' with ⟨rfl, rfl⟩ | hold
    · exact ⟨rfl, rfl, rfl⟩
    · exact hsound.keyed id' row' hold
  · intro id' row' hrow'
    rcases hget id' row' hrow' with ⟨rfl, rfl⟩ | hold
    · exact .inl rfl
    · exact hsound.sequenced id' row' hold
  · intro id' id'' row row' hrow hrow' hrun hrevision
    rcases hget id' row hrow with ⟨rfl, rfl⟩ | hold
    · rcases hget id'' row' hrow' with ⟨rfl, rfl⟩ | hold'
      · rfl
      · exact absurd hrevision.symm (hnew id'' row' hold' hrun.symm)
    · rcases hget id'' row' hrow' with ⟨rfl, rfl⟩ | hold'
      · exact absurd hrevision (hnew id' row hold hrun)
      · exact hsound.revisions _ _ row row' hold hold' hrun hrevision
  · intro id' id'' row row' hrow hrow' hrun hu hu'
    rcases hget id' row hrow with ⟨rfl, rfl⟩ | hold
    · simp [newSnapshot, Snapshot.unresolved] at hu
    · rcases hget id'' row' hrow' with ⟨rfl, rfl⟩ | hold'
      · simp [newSnapshot, Snapshot.unresolved] at hu'
      · exact hsound.one_unresolved _ _ row row' hold hold' hrun hu hu'

theorem plan_moves (h : plan L mode id request command_key principal db = .ok (db', result)) : Moves db db' := by
  simp only [plan, bind_ok] at h
  obtain ⟨-, -, -, -, -, -, found, -, h⟩ := h
  cases found with
  | some result =>
    simp only [pair_ok] at h
    exact .of_eq (congrArg Db.deliveries h.1.symm)
  | none =>
    simp only [bind_ok, need_ok] at h
    obtain ⟨claimed, hclaimed, control_state, -, h⟩ := h
    have hsame := claimTarget_ok hclaimed
    split at h
    · simp only [bind_ok, pair_ok] at h
      obtain ⟨-, -, rfl, -⟩ := h
      exact .of_eq hsame
    case h_2 hnone =>
      simp only [bind_ok, ensure_ok, Option.isNone_iff_eq_none, pair_ok] at h
      obtain ⟨-, hfree, rfl, -⟩ := h
      rw [hsame] at hfree hnone
      refine plan_new hfree ?_ (by rw [← hsame])
      intro id' row hrow hrun hrevision
      have hall := find?_eq_none.mp hnone row (Dict.mem_values.mpr ⟨id', hrow⟩)
      simp [hrun, hrevision] at hall

theorem DeliveryRow.control_later {run_id : String} : row.Later (row.control run_id state) := by
  unfold DeliveryRow.control
  split
  · exact ⟨rfl, rfl, control_beside.before⟩
  · exact .refl row

theorem DeliveryRow.control_same {run_id : String} : row.snapshot.Beside (row.control run_id state).snapshot := by
  unfold DeliveryRow.control
  split
  · exact control_beside
  · exact ⟨rfl, rfl, rfl, rfl⟩

theorem control_moves {run_id : String}
    (hd : db'.deliveries = db.deliveries.mapValues fun _ row => row.control run_id state) : Moves db db' := by
  have hget : ∀ id row', db'.deliveries.get? id = some row' →
      ∃ row, db.deliveries.get? id = some row ∧ row' = row.control run_id state := by
    intro id row' hrow'
    rw [hd, get?_mapValues] at hrow'
    obtain ⟨row, hrow, rfl⟩ := Option.map_eq_some_iff.mp hrow'
    exact ⟨row, hrow, rfl⟩
  have hlater : ∀ row : DeliveryRow, row.Later (row.control run_id state) := fun _ => DeliveryRow.control_later
  have hsame : ∀ row : DeliveryRow, row.snapshot.Beside (row.control run_id state).snapshot :=
    fun _ => DeliveryRow.control_same
  refine ⟨fun id row hrow => ⟨row.control run_id state, by rw [hd, get?_mapValues, hrow]; rfl,
    hlater row⟩, fun hsound => ⟨?_, ?_, ?_, ?_⟩⟩
  · intro id row' hrow'
    obtain ⟨row, hrow, rfl⟩ := hget id row' hrow'
    obtain ⟨hkey, hrun, hrevision⟩ := hsound.keyed id row hrow
    rw [(hsame row).id, (hsame row).request, (hlater row).run_id, (hlater row).revision]
    exact ⟨hkey, hrun, hrevision⟩
  · intro id row' hrow'
    obtain ⟨row, hrow, rfl⟩ := hget id row' hrow'
    exact (hsame row).sequenced (hsound.sequenced id row hrow)
  · intro id id' row row' hrow hrow' hrun hrevision
    obtain ⟨old, hold, rfl⟩ := hget id row hrow
    obtain ⟨old', hold', rfl⟩ := hget id' row' hrow'
    rw [(hlater old).run_id, (hlater old').run_id] at hrun
    rw [(hlater old).revision, (hlater old').revision] at hrevision
    exact hsound.revisions _ _ old old' hold hold' hrun hrevision
  · intro id id' row row' hrow hrow' hrun hu hu'
    obtain ⟨old, hold, rfl⟩ := hget id row hrow
    obtain ⟨old', hold', rfl⟩ := hget id' row' hrow'
    rw [(hlater old).run_id, (hlater old').run_id] at hrun
    rw [(hsame old).unresolved] at hu
    rw [(hsame old').unresolved] at hu'
    exact hsound.one_unresolved _ _ old old' hold hold' hrun hu hu'

theorem setControl_moves (h : setControl L run_id state command_key principal db = .ok (db', result)) :
    Moves db db' := by
  simp only [setControl, bind_ok] at h
  obtain ⟨-, -, -, -, found, -, h⟩ := h
  cases found with
  | some result =>
    simp only [pair_ok] at h
    exact .of_eq (congrArg Db.deliveries h.1.symm)
  | none =>
    simp only [bind_ok, pair_ok] at h
    obtain ⟨current, -, -, -, rfl, -⟩ := h
    exact control_moves rfl

theorem openTables_deliveries (h : openTables db = .ok db') : db'.deliveries = db.deliveries := by
  refine foldlM_keeps (I := fun acc : Db => acc.deliveries = db.deliveries) ?_ h rfl
  intro acc row next _ hacc hnext
  split at hnext
  · exact (claimRunPr_deliveries (need_ok.mp hnext)).trans hacc
  · cases hnext; exact hacc

-- What an activation finds

/-- The delivery is the highest revision of its run, whose older ones are resolved. -/
structure Current (db : Db) (s : Snapshot) : Prop where
  control : db.run_controls.get? s.request.run_id = some .active
  highest : ∀ row ∈ db.ofRun s.request.run_id, row.revision ≤ s.request.delivery_revision
  resolved : ∀ row ∈ db.ofRun s.request.run_id, row.revision < s.request.delivery_revision →
    row.snapshot.unresolved = false

theorem mem_ofRun : row ∈ db.ofRun run_id ↔ row.run_id = run_id ∧ ∃ id, db.deliveries.get? id = some row := by
  simp only [Db.ofRun, List.mem_filter, decide_eq_true_eq, Dict.mem_values]
  exact and_comm

theorem activationReason_none (h : activationReason db s = none) : Current db s := by
  simp only [activationReason] at h
  split at h
  case h_1 hactive =>
    simp only [ne_eq, ite_not] at h
    split at h
    case isFalse => cases h
    case isTrue hmax =>
      split at h
      case isTrue => cases h
      case isFalse hany =>
        refine ⟨hactive, fun row hrow => ?_, fun row hrow hlt => ?_⟩
        · exact (max?_eq_some_iff.mp hmax).2 _ (mem_map_of_mem hrow)
        · simp only [any_eq_true, Bool.and_eq_true, decide_eq_true_eq, not_exists, not_and,
            Bool.not_eq_true] at hany
          exact hany row hrow hlt
  case h_2 => cases h

theorem Current.alone (h : Current db s) (hsound : Sound db) (hc : db.snapshot? s.id = some s) :
    ∀ id row, db.deliveries.get? id = some row → row.run_id = s.request.run_id →
      row.snapshot.unresolved = true → id = s.id := by
  intro id row hrow hrun hunresolved
  obtain ⟨own, hown, hsame⟩ := snapshot?_eq_some.mp hc
  obtain ⟨-, hownrun, hownrevision⟩ := hsound.keyed _ own hown
  rw [hsame] at hownrun hownrevision
  have hmem : row ∈ db.ofRun s.request.run_id := mem_ofRun.mpr ⟨hrun, id, hrow⟩
  have hle := h.highest row hmem
  have hnot : ¬row.revision < s.request.delivery_revision := by
    intro hlt
    simp [h.resolved row hmem hlt] at hunresolved
  refine hsound.revisions id s.id row own hrow hown (hrun.trans hownrun.symm) ?_
  omega

-- The transactions of an advance

theorem block_moves : Moves db (block s reason db) := by
  unfold block
  split
  case isTrue hc => exact .beside (s := s.block reason) hc block_beside rfl
  · exact .refl db

theorem append_before : s.Before (s.append o state) := ⟨rfl, rfl, .append _ _⟩

/-- Where an operation is written down: the delivery is what it was read as, and current. -/
structure Appends (db db' : Db) (s : Snapshot) (o : Operation) (state : SnapshotState) : Prop where
  found : db.snapshot? s.id = some s
  current : Current db s
  deliveries : db'.deliveries = (db.save (s.append o state)).deliveries

theorem Appends.moves (h : Appends db db' s o state) (hsound : Sound db)
    (hseq : Sequenced (s.append o state)) : Moves db db' :=
  .save (s := s.append o state) h.found append_before h.deliveries (fun _ => hseq) fun _ =>
    .inr (h.current.alone hsound h.found)

def HeadIs (db : Db) (delivery_id id : String) : Prop :=
  ∃ c o, db.snapshot? delivery_id = some c ∧ c.operations.head? = some o ∧ o.id = id

theorem updateFirst_head (ho : o.id = id) : updateFirst id f (o :: rest) = f o :: rest := if_pos ho

theorem Sequenced.head (h : Sequenced s)
    (hhead : s.operations.head? = some o) (ho : o.id = id) (hf : ∀ o : Operation, (f o).step = o.step)
    (hconfirmed : o.state = .confirmed → (f o).state = .confirmed)
    (hops : s'.operations = updateFirst id f s.operations) (hpr : s'.pr = s.pr) : Sequenced s' := by
  unfold Sequenced
  rcases h with hnil | ⟨push, hpush, hstep⟩ | ⟨push, pr, hboth, hstep, hstate, hprstep, hprstate⟩
  · simp [hnil] at hhead
  · rw [hpush] at hhead
    cases hhead
    rw [hops, hpush, updateFirst_head ho]
    exact .inr (.inl ⟨f o, rfl, (hf o).trans hstep⟩)
  · rw [hboth] at hhead
    cases hhead
    rw [hops, hboth, updateFirst_head ho, hpr]
    exact .inr (.inr ⟨f o, pr, rfl, (hf o).trans hstep, hconfirmed hstate, hprstep, hprstate⟩)

open Operation (Kept pending confirm)

theorem unresolved_of_first (hhead : s.operations.head? = some o) (ho : o.state = .sendUnknown) :
    s.unresolved = true := by
  cases hops : s.operations with
  | nil => simp [hops] at hhead
  | cons first rest =>
    rw [hops] at hhead
    cases hhead
    simp [Snapshot.unresolved, hops, pending, ho]

theorem HeadIs.stored (h : HeadIs db delivery_id id) (hc : db.snapshot? delivery_id = some c)
    (ho : c.operation? id = some o) : c.operations.head? = some o ∧ o.id = id := by
  obtain ⟨c', first, hc', hfirst, hid⟩ := h
  rw [hc] at hc'
  cases hc'
  obtain ⟨rest, hops⟩ := head?_eq_some_iff.mp hfirst
  rw [Snapshot.operation?, hops, find?_cons_of_pos (by simpa using hid)] at ho
  cases ho
  exact ⟨hfirst, hid⟩

theorem reconcile_same : (o.reconcile observation commit_sha).id = o.id ∧
      (o.reconcile observation commit_sha).step = o.step := by
  unfold Operation.reconcile
  split <;> exact ⟨rfl, rfl⟩

theorem confirm_kept : o.Kept (o.confirm pr) := ⟨rfl, rfl, fun _ => rfl⟩

theorem Sequenced.confirmPr (h : Sequenced s) : Sequenced (s.confirmPr id pr observation) := by
  unfold Sequenced
  simp only [Snapshot.confirmPr]
  rcases h with hnil | ⟨push, hpush, hstep⟩ | ⟨push, request, hboth, hstep, hstate, hprstep, -⟩
  · exact .inl (by rw [hnil]; rfl)
  · rw [hpush]
    simp only [updateFirst]
    split
    · exact .inr (.inl ⟨_, rfl, hstep⟩)
    · exact .inr (.inl ⟨_, rfl, hstep⟩)
  · rw [hboth]
    simp only [updateFirst]
    split
    · exact .inr (.inr ⟨_, _, rfl, hstep, rfl, hprstep, fun _ => rfl⟩)
    · split
      · exact .inr (.inr ⟨_, _, rfl, hstep, hstate, hprstep, fun _ => rfl⟩)
      · exact .inr (.inr ⟨_, _, rfl, hstep, hstate, hprstep, fun _ => rfl⟩)

theorem confirmPr_before : s.Before (s.confirmPr id pr observation) :=
  ⟨rfl, rfl, .updateFirst (fun _ => confirm_kept) id s.operations⟩

theorem unresolved_confirmPr (h : (s.confirmPr id pr observation).unresolved = true) : s.unresolved = true := by
  have hany : ∀ l : List Operation, (updateFirst id (·.confirm pr) l).any pending = true →
      l.any pending = true := by
    intro l
    induction l with
    | nil => exact fun h => h
    | cons o rest ih =>
      unfold updateFirst
      split
      · intro hrest
        simp only [any_cons, Bool.or_eq_true] at hrest ⊢
        rcases hrest with hfirst | hrest
        · simp [confirm, pending] at hfirst
        · exact .inr hrest
      · intro hrest
        simp only [any_cons, Bool.or_eq_true] at hrest ⊢
        exact hrest.imp_right ih
  exact hany s.operations h

variable (hsound : Sound db)
include hsound

theorem keyed_of_sound (hc : db.snapshot? id = some c) : c.id = id := by
  obtain ⟨row, hrow, rfl⟩ := snapshot?_eq_some.mp hc
  exact (hsound.keyed id row hrow).1

theorem save_block_moves (hc : db.snapshot? id = some c) : Moves db (db.save (c.block reason)) := by
  refine .beside (s := c.block reason) (c := c) ?_ block_beside rfl
  show db.snapshot? c.id = some c
  rw [keyed_of_sound hsound hc, hc]

theorem checkActivation_moves (h : checkActivation s db = .ok (db', outcome)) : Moves db db' := by
  unfold checkActivation at h
  split at h
  · simp only [bind_ok, need_ok, pair_ok] at h
    obtain ⟨current, hc, rfl, -⟩ := h
    exact save_block_moves hsound hc
  · cases h
    exact .refl db

theorem appendPush_ok (h : appendPush s o db = .ok (db', outcome)) :
    outcome = .stops ∧ Moves db db' ∨ outcome = .goesOn ∧ Appends db db' s o .pushing := by
  simp only [appendPush, bind_ok, need_ok] at h
  obtain ⟨current, hc, h⟩ := h
  split at h
  · simp only [pair_ok] at h
    obtain ⟨rfl, rfl⟩ := h
    exact .inl ⟨rfl, save_block_moves hsound hc⟩
  case h_2 hreason =>
    split at h
    · simp only [pair_ok] at h
      obtain ⟨rfl, rfl⟩ := h
      exact .inl ⟨rfl, .refl db⟩
    case isFalse hsame =>
      simp only [pair_ok] at h
      obtain ⟨rfl, rfl⟩ := h
      cases not_not.mp hsame
      exact .inr ⟨rfl, hc, activationReason_none hreason, rfl⟩

theorem appendPr_ok (h : appendPr s o existing_id db = .ok (db', outcome)) :
    outcome = .stops ∧ Moves db db' ∨ outcome = .goesOn ∧ Appends db db' s o .publishing := by
  simp only [appendPr, bind_ok, need_ok] at h
  obtain ⟨current, hc, h⟩ := h
  split at h
  · simp only [pair_ok] at h
    obtain ⟨rfl, rfl⟩ := h
    exact .inl ⟨rfl, save_block_moves hsound hc⟩
  case h_2 hreason =>
    split at h
    · simp only [pair_ok] at h
      obtain ⟨rfl, rfl⟩ := h
      exact .inl ⟨rfl, .refl db⟩
    case isFalse hsame =>
      cases not_not.mp hsame
      split at h
      case h_1 claimed hclaimed =>
        have hdeliveries : claimed.deliveries = db.deliveries := by
          cases existing_id with
          | none => cases hclaimed; rfl
          | some pr_id => exact claimRunPr_deliveries hclaimed
        split at h
        · simp only [pair_ok] at h
          obtain ⟨rfl, rfl⟩ := h
          exact .inl ⟨rfl, save_block_moves hsound hc⟩
        · simp only [pair_ok] at h
          obtain ⟨rfl, rfl⟩ := h
          refine .inr ⟨rfl, hc, activationReason_none hreason, ?_⟩
          unfold Db.save
          rw [hdeliveries]
      · simp only [pair_ok] at h
        obtain ⟨rfl, rfl⟩ := h
        exact .inl ⟨rfl, save_block_moves hsound hc⟩

-- Confirmations

section
variable (hc : db.snapshot? id = some c)
include hc

theorem sequenced_of_sound : Sequenced c := by
  obtain ⟨row, hrow, rfl⟩ := snapshot?_eq_some.mp hc
  exact hsound.sequenced id row hrow

theorem push_moves (hfirst : c.operations.head? = some o) (ho : o.id = key) (hpending : o.state = .sendUnknown)
    (hf : ∀ o : Operation, (f o).id = o.id ∧ (f o).step = o.step) (hid : s.id = c.id)
    (hrequest : s.request = c.request) (hops : s.operations = updateFirst key f c.operations)
    (hpr : s.pr = c.pr) (hd : db'.deliveries = (db.save s).deliveries) : Moves db db' := by
  have hkept : o.Kept (f o) := ⟨(hf o).1, (hf o).2, fun hc => by simp [hpending] at hc⟩
  refine .save (c := c) ?_ ⟨hid, hrequest, ?_⟩ hd (fun hseq => ?_) fun _ =>
    .inl (unresolved_of_first hfirst hpending)
  · rw [hid, keyed_of_sound hsound hc, hc]
  · rw [hops]
    exact .updateHead hfirst ho hkept
  · exact hseq.head hfirst ho (fun o => (hf o).2) hkept.confirmed hops hpr

end

theorem recordPush_moves (hhead : HeadIs db s.id id)
    (h : recordPush s id observation db = .ok db') : Moves db db' := by
  simp only [recordPush, bind_ok, need_ok] at h
  obtain ⟨c, hc, stored, hstored, h⟩ := h
  obtain ⟨hfirst, ho⟩ := hhead.stored hc hstored
  split at h
  · cases h; exact .refl db
  case isFalse hnot =>
    cases h
    have hpending : stored.state = .sendUnknown := by
      cases hs : stored.state with
      | sendUnknown => rfl
      | confirmed => exact absurd hs hnot
    exact push_moves (s := c.recordPush id observation) (f := (·.record observation)) hsound hc hfirst ho hpending
      (fun _ => ⟨rfl, rfl⟩) rfl rfl rfl rfl rfl

theorem reconcilePush_moves (hhead : HeadIs db s.id id)
    (h : reconcilePush s id observation db = .ok db') : Moves db db' := by
  simp only [reconcilePush, bind_ok, need_ok] at h
  obtain ⟨c, hc, stored, hstored, h⟩ := h
  obtain ⟨hfirst, ho⟩ := hhead.stored hc hstored
  split at h
  case isTrue hpending =>
    cases h
    exact push_moves (s := c.reconcilePush id observation) (f := (·.reconcile observation _)) hsound hc hfirst ho hpending
      (fun _ => reconcile_same) rfl rfl rfl rfl rfl
  · cases h; exact .refl db

theorem unknown_moves (h : unknown s db = .ok db') : Moves db db' := by
  simp only [unknown, bind_ok, need_ok] at h
  obtain ⟨c, hc, h⟩ := h
  split at h
  · cases h
    exact .beside (s := c.unknown) (c := c) (by rw [← hc, ← keyed_of_sound hsound hc]; rfl) unknown_beside rfl
  · cases h; exact .refl db

theorem confirmPr_moves (h : confirmPr s id pr verification_reason observation remote_reason db = .ok db') :
    Moves db db' := by
  simp only [confirmPr, bind_ok, need_ok] at h
  obtain ⟨c, hc, -, -, h⟩ := h
  split at h
  · cases h; exact save_block_moves hsound hc
  case h_2 claimed hclaimed =>
    cases h
    have hid := keyed_of_sound hsound hc
    let s' := (c.confirmPr id pr observation).conclude (completed s.request pr)
      ((activationReason claimed (c.confirmPr id pr observation)).or
        (verification_reason.or remote_reason))
    refine .save (s := s') (c := c) ?_ (confirmPr_before.trans conclude_beside.before) ?_ ?_ ?_
    · show db.snapshot? c.id = some c
      rw [hid, hc]
    · unfold Db.save
      rw [claimRunPr_deliveries hclaimed]
    · exact fun hseq => conclude_beside.sequenced hseq.confirmPr
    · exact fun hu => .inl (unresolved_confirmPr (conclude_beside.unresolved ▸ hu))

end Karajan.Delivery
