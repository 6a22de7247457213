import Karajan.Scheduling.TaskTable
import Karajan.Scheduling.Outcomes

/-!
# Archived versions

Every version a decision produces is archived, and a version that is archived
stays as it is. A set names each of its members by revision and digest, and
`members_readable` says that the archive answers for all of them.
-/

namespace Karajan.Scheduling

open Dict Check

-- Reading a version back

/-- One immutable task version, by the identity a seal pinned it with. -/
def taskVersion (P : Platform) (db : Db) (key : RunKey) (task_id : String) (revision : Nat)
    (digest : String) : Chk Task := do
  owned P db key.project_id
  let _ ← runRow P (db.runs key)
  let row ← need ((db.runs key).scheduling_task_versions.get? (task_id, revision))
    (plain .taskVersionNotFound)
  ensure (row.digest = digest)
    { code := .taskVersionMismatch
      fields := [("pinned_digest", .str (takeText 64 digest)),
        ("stored_digest", .str (takeText 64 row.digest))] }
  ensure (!taskChanged P row.record) (plain .taskRecordChanged)
  return row.record

section
variable {id : String}

-- The archive

def recordedOf (versions : Dict String (List Task)) (id : String) : List Task := (versions.get? id).getD []

/-- The rows some versions of one task are archived as, by their revision. -/
def versionRows (versions : List Task) : List (Nat × Row Task) :=
  versions.map fun version => (version.revision, ⟨version.digest, version⟩)

theorem versionRows_append : versionRows (l ++ l') = versionRows l ++ versionRows l' := List.map_append

theorem lookup_versionRows_none (h : ∀ version ∈ l, version.revision < revision) :
    lookup revision (versionRows l) = none := by
  rw [lookup_eq_none]
  intro hm
  simp only [versionRows, List.map_map, List.mem_map, Function.comp_apply] at hm
  obtain ⟨version, hversion, rfl⟩ := hm
  exact Nat.lt_irrefl _ (h version hversion)

theorem recordedOf_archiveVersion : recordedOf (archiveVersion document versions) id =
      if document.task_id = id ∧ ∀ v ∈ recordedOf versions document.task_id, v.digest ≠ document.digest then
        recordedOf versions id ++ [document] else recordedOf versions id := by
  unfold archiveVersion recordedOf
  by_cases hall : ∀ v ∈ (versions.get? document.task_id).getD [], v.digest ≠ document.digest
  · by_cases hid : document.task_id = id
    · subst hid
      rw [if_pos (by simpa using hall), if_pos ⟨rfl, hall⟩, get?_put_self]
      rfl
    · rw [if_pos (by simpa using hall), if_neg fun h => hid h.1, get?_put_of_ne hid]
  · rw [if_neg (by simpa using hall), if_neg fun h => hall h.2]

theorem get?_writeVersions : (writeVersions plan archived).get? (id, revision) =
      match archived.get? (id, revision) with
      | some row => some row
      | none => (plan.working.get? id).bind fun document =>
          lookup revision (versionRows (pinnedVersions plan id document)) := by
  have hperm := List.perm_insertionSort byName plan.working.entries
  have hnodup : ((plan.working.entries.insertionSort byName).map Prod.fst).Nodup :=
    (hperm.map Prod.fst).nodup_iff.mpr plan.working.nodup
  have hrows : writeVersions plan archived = ((plan.working.entries.insertionSort byName).flatMap fun e =>
        (versionRows (pinnedVersions plan e.1 e.2)).map fun x => ((e.1, x.1), x.2)).foldl
          (fun d e => d.putNew e.1 e.2) archived := by
    rw [List.foldl_flatMap]
    simp only [versionRows, List.map_map, List.foldl_map]
    rfl
  rw [hrows, get?_foldl_putNew]
  cases archived.get? (id, revision) with
  | some row => rfl
  | none =>
    have hlookup := lookup_flatMap (k := id) (i := revision)
      (f := fun id document => versionRows (pinnedVersions plan id document)) hnodup
    rw [lookup_perm plan.working.nodup hperm] at hlookup
    exact hlookup

theorem pinnedVersions_eq : pinnedVersions plan id document =
      if recordedOf plan.versions id = [] then [document] else recordedOf plan.versions id := by
  unfold pinnedVersions recordedOf
  split
  case h_1 h => simp [h]
  case h_2 h => simp [h]
  case h_3 versions hne h =>
    rw [h, Option.getD_some, if_neg]
    exact hne

-- The version a member is pinned by

structure Holds (P : Platform) (row : Row Task) (digest : String) : Prop where
  column : row.digest = digest
  stated : row.record.digest = digest
  derived : P.contentDigest row.record.body = digest

def Pinned (P : Platform) (archived : Dict (String × Nat) (Row Task)) (id : String) (revision : Nat)
    (digest : String) : Prop :=
  ∃ row, archived.get? (id, revision) = some row ∧ Holds P row digest

/-- A decision will archive a version that is newer than all there were before it. -/
def Staged (P : Platform) (ctx : PlanContext) (versions : Dict String (List Task)) (id : String)
    (revision : Nat) (digest : String) : Prop :=
  (∃ row, lookup revision (versionRows (recordedOf versions id)) = some row ∧ Holds P row digest) ∧
    ∀ old, ctx.tasks.get? id = some old → old.revision < revision

theorem Staged.archive (h : Staged P ctx versions id revision digest) (document : Task) :
    Staged P ctx (archiveVersion document versions) id revision digest := by
  obtain ⟨⟨row, hrow, hholds⟩, hnew⟩ := h
  refine ⟨⟨row, ?_, hholds⟩, hnew⟩
  rw [recordedOf_archiveVersion]
  split
  · simp [versionRows_append, lookup_append, hrow]
  · exact hrow

/-- The version of every member is archived, or will be by the decision. -/
def MembersPinned (P : Platform) (ctx : PlanContext) (archived : Dict (String × Nat) (Row Task))
    (versions : Dict String (List Task)) (members : Dict String Member) : Prop :=
  ∀ id member, members.get? id = some member → member.task_id = id ∧
    ∃ revision, member.revision = some revision ∧
      (Pinned P archived id revision member.digest ∨ Staged P ctx versions id revision member.digest)

theorem MembersPinned.archive (h : MembersPinned P ctx archived versions members) (document : Task) :
    MembersPinned P ctx archived (archiveVersion document versions) members := by
  intro id member hget
  obtain ⟨hname, revision, hrevision, hpinned⟩ := h id member hget
  exact ⟨hname, revision, hrevision, hpinned.imp_right fun hs => hs.archive document⟩

theorem MembersPinned.put (h : MembersPinned P ctx archived versions members)
    (hname : member.task_id = id) (hrevision : member.revision = some revision)
    (hstaged : Staged P ctx versions id revision member.digest) :
    MembersPinned P ctx archived versions (members.put id member) := by
  intro id' member' hget
  rcases of_put hget with ⟨hid, rfl⟩ | ⟨-, hget⟩
  · subst hid; exact ⟨hname, revision, hrevision, .inr hstaged⟩
  · exact h id' member' hget

-- The versions of a plan

def VersionsDistinct (P : Platform) : Prop :=
  ∀ one other : Task, one.task_id = other.task_id →
    P.contentDigest one.body = P.contentDigest other.body → one.revision = other.revision

/-- The working tasks of a plan, and the versions it recorded of them. -/
structure TasksRecorded (P : Platform) (ctx : PlanContext) (working : Dict String Task)
    (versions : Dict String (List Task)) : Prop where
  intact : ∀ id task, working.get? id = some task → task.task_id = id ∧ task.digest = P.contentDigest task.body
  kept : ∀ id old, ctx.tasks.get? id = some old →
    ∃ task, working.get? id = some task ∧ old.revision ≤ task.revision
  listed : ∀ id, ∀ version ∈ recordedOf versions id,
    (∃ task, working.get? id = some task ∧ version.revision ≤ task.revision) ∧
    ∃ document : Task, document.task_id = id ∧ document.revision = version.revision ∧
      P.contentDigest document.body = version.digest

structure Written (P : Platform) (working : Dict String Task) (id : String) (document version : Task) :
    Prop where
  name : document.task_id = id
  digest : document.digest = P.contentDigest document.body
  version_name : version.task_id = id
  revision : version.revision = document.revision
  of_document : ∃ other : Task, other.task_id = id ∧ other.revision = version.revision ∧
    P.contentDigest other.body = version.digest
  ascends : ∀ task, working.get? id = some task → task.revision ≤ document.revision

theorem TasksRecorded.write (h : TasksRecorded P ctx working versions) (hw : Written P working id document version) :
    TasksRecorded P ctx (working.put id document) (archiveVersion version versions) := by
  have hother : ∀ id', id ≠ id' → recordedOf (archiveVersion version versions) id' = recordedOf versions id' := by
    intro id' hne
    rw [recordedOf_archiveVersion, if_neg]
    rintro ⟨rfl, -⟩
    exact hne hw.version_name.symm
  have hself : ∀ v ∈ recordedOf (archiveVersion version versions) id,
      v ∈ recordedOf versions id ∨ v = version := by
    intro v hv
    rw [recordedOf_archiveVersion] at hv
    split at hv
    · simpa using hv
    · exact .inl hv
  constructor
  · intro id' task hget
    rcases of_put hget with ⟨hid, rfl⟩ | ⟨-, hget⟩
    · subst hid; exact ⟨hw.name, hw.digest⟩
    · exact h.intact id' task hget
  · intro id' old hold
    obtain ⟨task, htask, hle⟩ := h.kept id' old hold
    rw [get?_put]
    split
    case isTrue hid => subst hid; exact ⟨document, rfl, le_trans hle (hw.ascends task htask)⟩
    · exact ⟨task, htask, hle⟩
  · intro id' v hv
    by_cases hid : id = id'
    · subst hid
      rw [get?_put_self]
      rcases hself v hv with hm | rfl
      · obtain ⟨⟨task, htask, hle⟩, hdocument⟩ := h.listed id v hm
        exact ⟨⟨document, rfl, le_trans hle (hw.ascends task htask)⟩, hdocument⟩
      · exact ⟨⟨document, rfl, le_of_eq hw.revision⟩, hw.of_document⟩
    · rw [hother id' hid] at hv
      rw [get?_put_of_ne hid]
      exact h.listed id' v hv

theorem TasksRecorded.staged (h : TasksRecorded P ctx working versions) (hdistinct : VersionsDistinct P) (hname : document.task_id = id)
    (hdigest : document.digest = P.contentDigest document.body)
    (hnewer : ∀ task, working.get? id = some task → task.revision < document.revision) :
    Staged P ctx (archiveVersion document versions) id document.revision document.digest := by
  have hdiffers : ∀ version ∈ recordedOf versions document.task_id, version.digest ≠ document.digest := by
    rw [hname]
    intro version hversion heq
    obtain ⟨⟨task, htask, hle⟩, other, hother, hrevision, hbody⟩ := h.listed id version hversion
    have hsame := hdistinct other document (hother.trans hname.symm) (by rw [hbody, heq, hdigest])
    have hlt := hnewer task htask
    omega
  refine ⟨⟨⟨document.digest, document⟩, ?_, rfl, rfl, hdigest.symm⟩, ?_⟩
  · rw [recordedOf_archiveVersion, if_pos ⟨hname, hdiffers⟩, versionRows_append, lookup_append,
      lookup_versionRows_none]
    · simp [versionRows, lookup]
    · intro version hversion
      obtain ⟨⟨task, htask, hle⟩, -⟩ := h.listed id version hversion
      exact lt_of_le_of_lt hle (hnewer task htask)
  · intro old hold
    obtain ⟨task, htask, hle⟩ := h.kept id old hold
    exact lt_of_le_of_lt hle (hnewer task htask)

structure PlanVersions (P : Platform) (ctx : PlanContext) (archived : Dict (String × Nat) (Row Task))
    (plan : Plan) : Prop where
  tasks : TasksRecorded P ctx plan.working plan.versions
  created : ∀ id digest, plan.document_digests.get? id = some digest → Staged P ctx plan.versions id 1 digest
  sets : ∀ name expansion, plan.expansions.get? name = some expansion →
    MembersPinned P ctx archived plan.versions expansion.members

theorem TaskEdit.task_id (h : TaskEdit ctx working action id task edited) : edited.task_id = task.task_id := by
  cases h <;> rfl

section
variable (h : PlanVersions P ctx archived plan)
include h

theorem PlanVersions.revise (hdistinct : VersionsDistinct P)
    (found : plan.working.get? id = some task) (hname : edited.task_id = task.task_id) :
    PlanVersions P ctx archived (plan.revise P id (revisedTask P task edited)) := by
  have hid : (revisedTask P task edited).task_id = id := hname.trans (h.tasks.intact id task found).1
  have hnewer : ∀ before, plan.working.get? id = some before →
      before.revision < (revisedTask P task edited).revision := by
    intro before hbefore
    rw [found] at hbefore; cases hbefore
    exact Nat.lt_succ_self _
  have hstaged := h.tasks.staged hdistinct hid rfl hnewer
  constructor
  · refine h.tasks.write ⟨hid, rfl, hid, rfl, ⟨_, hid, rfl, rfl⟩, ?_⟩
    exact fun before hbefore => Nat.le_of_lt (hnewer before hbefore)
  · exact fun name digest hget => (h.created name digest hget).archive _
  · intro name expansion hget
    simp only [Plan.revise, refreshMember, get?_mapValues, Option.map_eq_some_iff] at hget
    obtain ⟨before, hbefore, rfl⟩ := hget
    have hpinned := (h.sets name before hbefore).archive (revisedTask P task edited)
    split
    case isFalse => exact hpinned
    case isTrue =>
      intro id' member hmember
      change (before.members.modify _ _).get? id' = some member at hmember
      rw [get?_modify] at hmember
      split at hmember
      case isFalse => exact hpinned id' member hmember
      case isTrue hsame =>
        obtain ⟨old, hold, rfl⟩ := Option.map_eq_some_iff.mp hmember
        rw [hid] at hsame
        subst hsame
        exact ⟨(hpinned id' old hold).1, _, rfl, .inr hstaged⟩

theorem PlanVersions.retire (found : plan.working.get? id = some previous) (task_id : String) :
    PlanVersions P ctx archived (plan.retire P ctx id task_id previous) := by
  obtain ⟨hname, hdigest⟩ := h.tasks.intact id previous found
  constructor
  · refine h.tasks.write ⟨hname, rfl, hname, rfl, ⟨previous, hname, rfl, hdigest.symm⟩, ?_⟩
    intro before hbefore
    rw [found] at hbefore; cases hbefore
    exact le_refl previous.revision
  · exact fun name digest hget => (h.created name digest hget).archive _
  · exact fun name expansion hget => (h.sets name expansion hget).archive _

theorem PlanVersions.addTask (hdistinct : VersionsDistinct P) (hname : document.task_id = id) (hrevision : document.revision = 1)
    (hdigest : document.digest = P.contentDigest document.body) (fresh : plan.working.get? id = none) :
    PlanVersions P ctx archived (plan.addTask id document) ∧
      Staged P ctx (plan.addTask id document).versions id 1 document.digest := by
  have hnone : ∀ before, plan.working.get? id ≠ some before := by
    intro before hbefore
    rw [fresh] at hbefore; cases hbefore
  have hstaged := h.tasks.staged hdistinct hname hdigest fun before hbefore => absurd hbefore (hnone before)
  rw [hrevision] at hstaged
  refine ⟨⟨?_, ?_, ?_⟩, hstaged⟩
  · refine h.tasks.write ⟨hname, hdigest, hname, rfl, ⟨document, hname, rfl, hdigest.symm⟩, ?_⟩
    exact fun before hbefore => absurd hbefore (hnone before)
  · intro id' digest hget
    simp only [Plan.addTask, get?_put] at hget
    split at hget
    case isTrue hid => cases hget; subst hid; exact hstaged
    · exact (h.created id' digest hget).archive _
  · exact fun name expansion hget => (h.sets name expansion hget).archive _

end

-- One action

def SuccessorsCreated (plan : Plan) : Prop :=
  ∀ replaced successor, plan.replaced_within.get? replaced = some successor →
    ∃ digest, plan.document_digests.get? successor = some digest

theorem Superseding.document_digests (h : Superseding P ctx plan spec task_id plan') :
    plan'.document_digests = plan.document_digests := by
  cases h <;> rfl

theorem SuccessorsCreated.addTask (h : SuccessorsCreated plan)
    (hs : Superseding P ctx plan spec id plan') (document : Task) :
    SuccessorsCreated (plan'.addTask id document) := by
  intro replaced successor hget
  simp only [Plan.addTask, get?_put, hs.document_digests]
  split
  · exact ⟨_, rfl⟩
  case isFalse hne =>
    rcases hs.replaced_within hget with hbefore | ⟨-, rfl⟩
    · exact h replaced successor hbefore
    · exact absurd rfl hne

theorem addMember_versions (hdistinct : VersionsDistinct P) (hadd : addMember P ctx expansion pointer staged item = .ok staged')
    (h : PlanVersions P ctx archived staged.1) (hcreated : SuccessorsCreated staged.1)
    (hmembers : MembersPinned P ctx archived staged.1.versions staged.2) :
    PlanVersions P ctx archived staged'.1 ∧ SuccessorsCreated staged'.1 ∧
      MembersPinned P ctx archived staged'.1.versions staged'.2 := by
  obtain ⟨fields, spec, middle, hadding, hplan, hmember⟩ := addMember_ok hadd
  have hmiddle : PlanVersions P ctx archived middle ∧
      MembersPinned P ctx archived middle.versions staged.2 := by
    cases hadding.superseding with
    | fresh => exact ⟨h, hmembers⟩
    | replaced _ found => exact ⟨h.retire found _, hmembers.archive _⟩
  rw [hplan, hmember]
  generalize hdocument : memberDocument P ctx expansion spec (memberId P ctx.decision_id fields) = document
  have hname : document.task_id = memberId P ctx.decision_id fields := by rw [← hdocument]; rfl
  have hfirst : document.revision = 1 := by rw [← hdocument]; rfl
  have hdigest : document.digest = P.contentDigest document.body := by rw [← hdocument]; rfl
  obtain ⟨hadded, hstaged⟩ := hmiddle.1.addTask hdistinct hname hfirst hdigest
    (hadding.superseding.get?_none hadding.fresh)
  exact ⟨hadded, hcreated.addTask hadding.superseding document,
    (hmiddle.2.archive document).put hname rfl hstaged⟩

theorem MembersPinned.follow (hcreated : SuccessorsCreated plan) (h : PlanVersions P ctx archived plan)
    (hmembers : MembersPinned P ctx archived plan.versions members) :
    MembersPinned P ctx archived plan.versions (followReplaced plan members) := by
  have hentries : ∀ entry ∈ plan.replaced_within.entries,
      Staged P ctx plan.versions entry.2 1 ((plan.document_digests.get? entry.2).getD "") := by
    rintro ⟨replaced, successor⟩ hentry
    obtain ⟨digest, hdigest⟩ := hcreated replaced successor (get?_eq_some.mpr hentry)
    rw [hdigest]
    exact h.created successor digest hdigest
  unfold followReplaced
  generalize plan.replaced_within.entries = entries at hentries
  induction entries generalizing members with
  | nil => exact hmembers
  | cons entry entries ih =>
    refine ih ?_ fun entry' hentry => hentries entry' (List.mem_cons_of_mem _ hentry)
    have hstaged := hentries _ (List.mem_cons_self ..)
    dsimp only
    split
    · exact hmembers
    · refine MembersPinned.put ?_ rfl rfl hstaged
      intro id member hget
      rw [get?_erase] at hget
      split at hget
      · cases hget
      · exact hmembers id member hget

theorem MembersPinned.pin (hmembers : MembersPinned P ctx archived versions members)
    (working : Dict String Task) : MembersPinned P ctx archived versions (pinMembers working members) := by
  intro id member hget
  simp only [pinMembers, get?_mapValues, Option.map_eq_some_iff] at hget
  obtain ⟨before, hbefore, rfl⟩ := hget
  obtain ⟨hname, revision, hrevision, hpinned⟩ := hmembers id before hbefore
  simp only [hrevision]
  exact ⟨hname, revision, rfl, hpinned⟩

theorem Applied.recorded (happly : Applied P ctx plan action plan')
    (hdistinct : VersionsDistinct P) (h : PlanVersions P ctx archived plan) (hcreated : SuccessorsCreated plan) :
    PlanVersions P ctx archived plan' ∧ SuccessorsCreated plan' := by
  cases happly with
  | @expanded expansion_id _ expansion _ middle members _ _ found _ _ staged =>
    have hbatch : PlanVersions P ctx archived middle ∧ SuccessorsCreated middle ∧
        MembersPinned P ctx archived middle.versions members := by
      refine foldlM_keeps (I := fun staged => PlanVersions P ctx archived staged.1 ∧
        SuccessorsCreated staged.1 ∧ MembersPinned P ctx archived staged.1.versions staged.2) ?_ staged
        ⟨h, hcreated, h.sets expansion_id expansion found⟩
      rintro before item after - ⟨hplan, hsuccessors, hmembers⟩ hadd
      exact addMember_versions hdistinct hadd hplan hsuccessors hmembers
    obtain ⟨hplan, hsuccessors, hmembers⟩ := hbatch
    refine ⟨⟨hplan.tasks, hplan.created, ?_⟩, hsuccessors⟩
    intro name expansion' hget
    rcases of_put hget with ⟨-, rfl⟩ | ⟨-, hget⟩
    · exact (hmembers.follow hsuccessors hplan).pin _
    · exact hplan.sets name expansion' hget
  | @closed expansion_id expansion _ _ _ _ found _ members =>
    refine ⟨⟨h.tasks, h.created, ?_⟩, hcreated⟩
    intro name expansion' hget
    rcases of_put hget with ⟨-, rfl⟩ | ⟨-, hget⟩
    · rw [members]
      exact h.sets expansion_id expansion found
    · exact h.sets name expansion' hget
  | revised revising =>
    rw [revising.after]
    exact ⟨h.revise hdistinct revising.found revising.edit.task_id, hcreated⟩

theorem planDecision_versions
    (hplan : planDecision P ctx expansions actions = .ok planned) (hdistinct : VersionsDistinct P)
    (hintact : ∀ id task, ctx.tasks.get? id = some task →
      task.task_id = id ∧ task.digest = P.contentDigest task.body)
    (hsets : ∀ name expansion, expansions.get? name = some expansion →
      MembersPinned P ctx archived .empty expansion.members) : PlanVersions P ctx archived planned.toPlan := by
  refine (foldlM_keeps (I := fun plan => PlanVersions P ctx archived plan ∧ SuccessorsCreated plan)
    ?_ (planDecision_folded hplan) ⟨⟨⟨hintact, ?_, ?_⟩, ?_, hsets⟩, ?_⟩).1
  · rintro before item after - ⟨hbefore, hcreated⟩ happly
    exact (applyAction_ok happly).recorded hdistinct hbefore hcreated
  · exact fun id old hold => ⟨old, hold, le_refl _⟩
  · intro id version hversion
    cases hversion
  · intro id digest hget
    cases hget
  · intro replaced successor hget
    cases hget

-- The archive after a decision

theorem mem_of_lookup_versionRows (h : lookup revision (versionRows l) = some row) :
    ∃ version ∈ l, version.revision = revision := by
  have hkeys : revision ∈ (versionRows l).map Prod.fst := by
    by_contra hnot
    rw [Dict.lookup_eq_none.mpr hnot] at h
    cases h
  simpa [versionRows] using hkeys

theorem Pinned.write (h : Pinned P archived id revision digest) :
    Pinned P (writeVersions plan archived) id revision digest := by
  obtain ⟨row, hrow, hholds⟩ := h
  refine ⟨row, ?_, hholds⟩
  rw [get?_writeVersions, hrow]

theorem Staged.write (h : Staged P ctx plan.versions id revision digest) (hp : PlanVersions P ctx archived plan)
    (hnewest : ∀ row, archived.get? (id, revision) = some row →
      ∃ old, ctx.tasks.get? id = some old ∧ revision ≤ old.revision) :
    Pinned P (writeVersions plan archived) id revision digest := by
  obtain ⟨⟨row, hrow, hholds⟩, hnew⟩ := h
  obtain ⟨version, hversion, -⟩ := mem_of_lookup_versionRows hrow
  obtain ⟨⟨document, hdocument, -⟩, -⟩ := hp.tasks.listed id version hversion
  refine ⟨row, ?_, hholds⟩
  rw [get?_writeVersions]
  split
  case h_1 before hbefore =>
    obtain ⟨old, hold, hle⟩ := hnewest before hbefore
    exact absurd (hnew old hold) (Nat.not_lt.mpr hle)
  · rw [hdocument, Option.bind_some, pinnedVersions_eq, if_neg (List.ne_nil_of_mem hversion)]
    exact hrow

theorem PlanVersions.archive_newest (hp : PlanVersions P ctx archived plan)
    (hnewest : ∀ row, archived.get? (id, revision) = some row →
      ∃ old, ctx.tasks.get? id = some old ∧ revision ≤ old.revision)
    (hget : (writeVersions plan archived).get? (id, revision) = some row) :
    ∃ task, plan.working.get? id = some task ∧ revision ≤ task.revision := by
  rw [get?_writeVersions] at hget
  split at hget
  case h_1 before hbefore =>
    obtain ⟨old, hold, hle⟩ := hnewest before hbefore
    obtain ⟨task, htask, hle'⟩ := hp.tasks.kept id old hold
    exact ⟨task, htask, le_trans hle hle'⟩
  · obtain ⟨document, hdocument, hrow⟩ := Option.bind_eq_some_iff.mp hget
    obtain ⟨version, hversion, rfl⟩ := mem_of_lookup_versionRows hrow
    rw [pinnedVersions_eq] at hversion
    split at hversion
    · rw [List.mem_singleton] at hversion
      exact ⟨document, hdocument, by rw [hversion]⟩
    · exact (hp.tasks.listed id version hversion).1

end

-- Every run

section
variable {id : String}

structure Versioned (P : Platform) (tables : RunTables) : Prop where
  named : ∀ id task, tables.task? id = some task → task.task_id = id
  newest : ∀ id revision row, tables.scheduling_task_versions.get? (id, revision) = some row →
    ∃ task, tables.task? id = some task ∧ revision ≤ task.revision
  pinned : ∀ name expansion id member, tables.task_expansions.get? name = some expansion →
    expansion.members.get? id = some member → member.task_id = id ∧ ∃ revision,
      member.revision = some revision ∧ Pinned P tables.scheduling_task_versions id revision member.digest

theorem Handled.revision (h : Handled P old new) : new.revision = old.revision := by
  cases h <;> rfl

theorem Versioned.handled (h : Versioned P tables)
    (found : tables.task? id = some old) (handled : Handled P old new)
    (htable : after.task? = fun name => if name = id then some new else tables.task? name)
    (hversions : after.scheduling_task_versions = tables.scheduling_task_versions)
    (hsets : after.task_expansions = tables.task_expansions) : Versioned P after := by
  have hentry := congrFun htable
  constructor
  · intro name task hget
    rw [hentry] at hget
    split at hget
    case isTrue hname =>
      cases hget
      rw [handled.fixed.task_id, hname]
      exact h.named id old found
    · exact h.named name task hget
  · intro name revision row hrow
    rw [hversions] at hrow
    obtain ⟨task, htask, hle⟩ := h.newest name revision row hrow
    rw [hentry]
    split
    case isTrue hname =>
      subst hname
      rw [found] at htask; cases htask
      exact ⟨new, rfl, by rw [handled.revision]; exact hle⟩
    · exact ⟨task, htask, hle⟩
  · rw [hversions, hsets]
    exact h.pinned

theorem tasksOf_intact (h : tasksOf P tables = .ok tasks) (hget : tasks.get? id = some task) :
    task.digest = P.contentDigest task.body := by
  simp only [tasksOf, bind_ok, ensure_ok, List.all_eq_true, pure_ok] at h
  obtain ⟨_, hall, rfl⟩ := h
  rw [get?_mapValues] at hget
  obtain ⟨row, hrow, rfl⟩ := Option.map_eq_some_iff.mp hget
  have hunchanged := hall row (Dict.mem_values.mpr ⟨id, hrow⟩)
  simp only [unchangedTask, taskChanged, ne_eq, decide_not, Bool.not_not, Bool.and_eq_true,
    decide_eq_true_eq] at hunchanged
  exact hunchanged.1

theorem Versioned.decided (h : Versioned P tables) (hdistinct : VersionsDistinct P)
    (planned : PlannedFrom P tables submission ctx plan after) : Versioned P after := by
  have hcontext : ∀ id, ctx.tasks.get? id = tables.task? id := fun _ => planned.context
  have hp : PlanVersions P ctx tables.scheduling_task_versions plan.toPlan := by
    refine planDecision_versions planned.planned hdistinct ?_ ?_
    · intro id task hget
      exact ⟨h.named id task (by rw [← hcontext, hget]), tasksOf_intact planned.tasks hget⟩
    · intro name expansion hset id member hmember
      obtain ⟨hname, revision, hrevision, hpinned⟩ := h.pinned name expansion id member hset hmember
      exact ⟨hname, revision, hrevision, .inl hpinned⟩
  have hnewest : ∀ id revision row, tables.scheduling_task_versions.get? (id, revision) = some row →
      ∃ old, ctx.tasks.get? id = some old ∧ revision ≤ old.revision := by
    intro id revision row hrow
    rw [hcontext]
    exact h.newest id revision row hrow
  have htable : after.task? = plan.working.get? := funext planned.written
  obtain ⟨revisions, decisions, rfl⟩ := planned.after
  constructor
  · intro id task hget
    rw [htable] at hget
    exact (hp.tasks.intact id task hget).1
  · intro id revision row hrow
    rw [htable]
    exact hp.archive_newest (hnewest id revision) hrow
  · intro name expansion id member hset hmember
    change (writeExpansions plan.toPlan tables.task_expansions).get? name = some expansion at hset
    rw [get?_writeExpansions] at hset
    split at hset
    case h_1 planned hplanned =>
      cases hset
      obtain ⟨hname, revision, hrevision, hpinned | hstaged⟩ := hp.sets name _ hplanned id member hmember
      · exact ⟨hname, revision, hrevision, hpinned.write⟩
      · exact ⟨hname, revision, hrevision, hstaged.write hp (hnewest id revision)⟩
    · obtain ⟨hname, revision, hrevision, hpinned⟩ := h.pinned name expansion id member hset hmember
      exact ⟨hname, revision, hrevision, hpinned.write⟩

open RunTables (task? workflow_run)

theorem PlanMove.versioned (hm : PlanMove P store key request after) (hdistinct : VersionsDistinct P)
    (h : Versioned P (store.db.runs key)) : Versioned P after := by
  cases hm with
  | kept tasks versions expansions =>
    have htable : after.task? = (store.db.runs key).task? := by
      funext name
      rw [task?, tasks, task?]
    constructor
    · rw [htable]; exact h.named
    · rw [htable, versions]; exact h.newest
    · rw [versions, expansions]; exact h.pinned
  | opened _ memberless =>
    refine ⟨h.named, h.newest, ?_⟩
    intro name expansion id member hset hmember
    rcases of_put hset with ⟨-, rfl⟩ | ⟨-, hset⟩
    · rw [memberless.2] at hmember
      cases hmember
    · exact h.pinned name expansion id member hset hmember
  | claimed claimed =>
    exact h.handled claimed.stored (.claimed claimed.ready) (updateTask_task? claimed.stored) rfl rfl
  | reported reporting =>
    have hstored := task?_of_tasksOf reporting.unchanged
    refine h.handled hstored (.reported ?_) (updateTask_task? hstored) rfl rfl
    rw [reporting.claimed]
    simp
  | decided _ _ planned => exact h.decided hdistinct planned

theorem versioned (hdistinct : VersionsDistinct P) (h : (schedulingStore P).Reach System.free store)
    (key : RunKey) : Versioned P (store.db.runs key) := by
  refine h.invariant (I := fun store => Versioned P (store.db.runs key)) ?_ ?_
  · rintro _ ⟨projects, rfl⟩
    refine ⟨?_, ?_, ?_⟩
    · intro id task htask
      cases htask
    · intro id revision row hrow
      cases hrow
    · intro name expansion id member hset
      cases hset
  · intro store request hv _
    exact (serve_plan P store request key).versioned hdistinct hv

theorem runRow_congr (h : after.workflow_run = tables.workflow_run) : runRow P after = runRow P tables := by
  simp only [runRow, h]

theorem Effect.run_kept (h : Effect P store request db')
    (hrun : runRow P (store.db.runs key) = .ok run) : runRow P (db'.runs key) = .ok run := by
  have hstored : (store.db.runs key).workflow_run ≠ none := by
    intro hnone
    simp [runRow, hnone, need] at hrun
  rw [← hrun]
  apply runRow_congr
  cases h with
  | unchanged | resources | credentialIssued => rfl
  | runCreated fresh =>
    rw [Db.setRun_runs]
    split
    case isTrue hkey => exact absurd fresh (hkey ▸ hstored)
    · rfl
  | grantIssued | grantDelegated | grantRevoked | expansionCreated | refusalRecorded | claimed
  | reported => exact Db.setRun_frame workflow_run rfl
  | decided _ _ _ _ _ _ _ decided =>
    refine Db.setRun_frame workflow_run ?_
    rw [(commitDecision_ok decided.committed).after]

def MembersFounded (P : Platform) (db : Db) (key : RunKey) : Prop :=
  ∀ name expansion id member, (db.runs key).task_expansions.get? name = some expansion →
    expansion.members.get? id = some member →
    owned P db key.project_id = .ok () ∧ ∃ run, runRow P (db.runs key) = .ok run

theorem serve_founded (P : Platform) (store : Store) (request : Request)
    (h : MembersFounded P store.db key) : MembersFounded P (store.serve P request).db key := by
  have heffect := serve_effect (P := P) store request
  have hkeeps : (owned P store.db key.project_id = .ok () ∧ ∃ run, runRow P (store.db.runs key) = .ok run) →
      owned P (store.serve P request).db key.project_id = .ok () ∧
        ∃ run, runRow P ((store.serve P request).db.runs key) = .ok run := by
    rintro ⟨howned, run, hrun⟩
    rw [owned_congr heffect.projects]
    exact ⟨howned, run, heffect.run_kept hrun⟩
  intro name expansion id member hset hmember
  apply hkeeps
  have hmove := serve_plan P store request key
  generalize (store.serve P request).db.runs key = after at hmove hset
  cases hmove with
  | kept _ _ expansions =>
    rw [expansions] at hset
    exact h name expansion id member hset hmember
  | opened _ memberless =>
    rcases of_put hset with ⟨-, rfl⟩ | ⟨-, hset⟩
    · rw [memberless.2] at hmember
      cases hmember
    · exact h name expansion id member hset hmember
  | claimed | reported => exact h name expansion id member hset hmember
  | decided _ owned planned =>
    obtain ⟨run, hrun, -⟩ := planned.producers
    exact ⟨owned, run, hrun⟩

theorem members_founded (h : (schedulingStore P).Reach System.free store) (key : RunKey) :
    MembersFounded P store.db key := by
  refine h.invariant (I := fun store => MembersFounded P store.db key) ?_ ?_
  · rintro _ ⟨projects, rfl⟩ name expansion id member hset
    cases hset
  · exact fun store request hf _ => serve_founded P store request hf

theorem taskVersion_ok (howned : owned P db key.project_id = .ok ()) (hrun : runRow P (db.runs key) = .ok run)
    (hrow : (db.runs key).scheduling_task_versions.get? (id, revision) = some row)
    (hholds : Holds P row digest) : taskVersion P db key id revision digest = .ok row.record := by
  have hunchanged : taskChanged P row.record = false := by
    simp [taskChanged, hholds.stated, hholds.derived]
  simp [taskVersion, howned, hrun, hrow, need, ensure, hholds.column, hunchanged, pure, Except.pure]

end

namespace Sample

def revisionOf (value : Json) : Nat :=
  match value.object?.map fun fields => field fields "revision" with
  | some (.int n) => n.toNat
  | _ => 0

def strokeDigest (value : Json) : String :=
  String.ofList (List.replicate (revisionOf value) '|' ++ (contentDigest value).toList.cons '-')

def strokes : Platform := { platform with contentDigest := strokeDigest }

theorem strokes_distinct : VersionsDistinct strokes := by
  have hstrokes : ∀ n m (l l' : List Char),
      List.replicate n '|' ++ '-' :: l = List.replicate m '|' ++ '-' :: l' → n = m := by
    intro n
    induction n with
    | zero => intro m l l' h; cases m <;> simp_all [List.replicate_succ]
    | succ n ih =>
      intro m l l' h
      cases m with
      | zero => simp [List.replicate_succ] at h
      | succ m =>
        simp only [List.replicate_succ, List.cons_append, List.cons.injEq, true_and] at h
        rw [ih m l l' h]
  have hrevision : ∀ task : Task, revisionOf task.body = task.revision := fun task => by
    simp [revisionOf, Task.body, Json.object?, field, findField]
  intro one other _ h
  have hlists := congrArg String.toList h
  simp only [strokes, strokeDigest, String.toList_ofList, hrevision] at hlists
  exact hstrokes _ _ _ _ hlists

def edited : List Request :=
  ready ++ [submit "2" 1 [.object [("action", .str "set_dependencies"), ("task_id", .str "d1.1"),
    ("depends_on", .list [])]]]

end Sample

open Sample (strokes key start edited)

end Karajan.Scheduling
