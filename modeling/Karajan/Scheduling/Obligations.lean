import Karajan.Scheduling.TaskTable
import Karajan.Scheduling.Revisions

/-!
# Obligations

What a task promised stays promised. An accepted decision leaves no outcome of
any task, retired or not, that no live task promises. A superseded task names
its successor, which is created by a later revision and promises as much, so the
successors lead to a task that is not superseded.
-/

namespace Karajan.Scheduling

open Dict Check

section
variable {id : String}

-- Successors

def CarriedBy (task? : String → Option Task) (task : Task) : Prop :=
  ∃ next successor, task.superseded_by = some next ∧ task? next = some successor ∧
    task.graph_revision < successor.graph_revision ∧
    ∀ outcome ∈ task.required_outcomes, outcome ∈ successor.required_outcomes

def Carried (task? : String → Option Task) : Prop :=
  ∀ id task, task? id = some task → task.state = .superseded → CarriedBy task? task

theorem CarriedBy.mono (h : CarriedBy task? old) (hfixed : TasksFixed task? after) (hold : TaskFixed old new)
    (hby : new.superseded_by = old.superseded_by) : CarriedBy after new := by
  obtain ⟨next, successor, hnext, hget, hlater, houtcomes⟩ := h
  obtain ⟨successor', hget', hsame⟩ := hfixed next successor hget
  refine ⟨next, successor', hby.trans hnext, hget', ?_, ?_⟩
  · rw [hold.graph_revision, hsame.graph_revision]
    exact hlater
  · rw [hold.required_outcomes, hsame.required_outcomes]
    exact houtcomes

def CreatedBy (pointer : Nat) (task? : String → Option Task) : Prop :=
  ∀ id task, task? id = some task → task.graph_revision ≤ pointer

-- One decision

section
theorem TaskEdit.superseded (live : task.live = true) (h : TaskEdit ctx working action id task edited) :
    (revisedTask P task edited).state ≠ .superseded := by
  have hstate := (Task.live_iff.mp live).1
  cases h <;> exact hstate

theorem memberDocument_superseded : (memberDocument P ctx expansion spec id).state ≠ .superseded := by
  intro h
  cases h

theorem WorkStep.carried (hsteps : WorkSteps P ctx actions ctx.tasks working)
    (hcreated : CreatedBy pointer ctx.tasks.get?) (hrevision : pointer < ctx.revision)
    (h : WorkStep P ctx actions working working') (hc : Carried working.get?) : Carried working'.get? := by
  have hfixed := h.tasks_fixed
  intro id task hget hstate
  cases h with
  | edited _ _ _ live edit =>
    rcases of_put hget with ⟨-, rfl⟩ | ⟨-, hget⟩
    · exact absurd hstate (edit.superseded live)
    · exact (hc id task hget hstate).mono hfixed (.refl task) rfl
  | added =>
    rcases of_put hget with ⟨-, rfl⟩ | ⟨-, hget⟩
    · exact absurd hstate memberDocument_superseded
    · exact (hc id task hget hstate).mono hfixed (.refl task) rfl
  | @replaced _ fields spec expansion replaced previous _ _ accepted _ replaces found _ carried =>
    rcases of_put hget with ⟨-, rfl⟩ | ⟨-, hget⟩
    · exact absurd hstate memberDocument_superseded
    · rcases of_put hget with ⟨-, rfl⟩ | ⟨-, hget⟩
      · obtain ⟨-, known, hknown⟩ := accepted.supersedes replaced replaces
        obtain ⟨previous', hprevious', hr⟩ := WorkSteps.redecided hsteps hknown
        rw [found] at hprevious'; cases hprevious'
        refine ⟨_, memberDocument P ctx expansion spec _, rfl, get?_put_self, ?_, carried⟩
        have hle := hcreated replaced known hknown
        rw [← hr.graph_revision] at hle
        exact lt_of_le_of_lt hle hrevision
      · exact (hc id task hget hstate).mono hfixed (.refl task) rfl

theorem WorkSteps.carried (hcreated : CreatedBy pointer ctx.tasks.get?)
    (hrevision : pointer < ctx.revision) (h : WorkSteps P ctx actions ctx.tasks working)
    (hc : Carried ctx.tasks.get?) : Carried working.get? := by
  induction h with
  | refl => exact hc
  | tail hsteps hstep ih => exact hstep.carried hsteps hcreated hrevision ih

theorem WorkSteps.created_by (hcreated : CreatedBy ctx.revision ctx.tasks.get?)
    (h : WorkSteps P ctx actions ctx.tasks working) : CreatedBy ctx.revision working.get? := by
  induction h with
  | refl => exact hcreated
  | tail _ hstep ih =>
    intro id task hget
    cases hstep with
    | edited _ _ found _ edit =>
      rcases of_put hget with ⟨-, rfl⟩ | ⟨-, hget⟩
      · rw [edit.redecided.graph_revision]
        exact ih _ _ found
      · exact ih id task hget
    | added =>
      rcases of_put hget with ⟨-, rfl⟩ | ⟨-, hget⟩
      · exact le_refl ctx.revision
      · exact ih id task hget
    | @replaced _ _ _ _ _ previous _ _ _ _ _ found =>
      rcases of_put hget with ⟨-, rfl⟩ | ⟨-, hget⟩
      · exact le_refl ctx.revision
      · rcases of_put hget with ⟨-, rfl⟩ | ⟨-, hget⟩
        · exact ih _ previous found
        · exact ih id task hget

def Promised (task? : String → Option Task) (outcome : String) : Prop :=
  ∃ id task, task? id = some task ∧ task.live = true ∧ outcome ∈ task.required_outcomes

theorem PlanAccepted.promised (h : PlanAccepted ctx plan)
    (hget : plan.working.get? id = some task) (ho : outcome ∈ task.required_outcomes) :
    Promised plan.working.get? outcome := by
  by_cases hlive : task.live = true
  · exact ⟨id, task, hget, hlive, ho⟩
  · have hcovered := h.covered
    simp only [uncoveredObligations, notIn_eq_nil] at hcovered
    have howed : outcome ∈ (plan.effective.values.filter Task.live).flatMap Task.obligations := by
      refine hcovered outcome (List.mem_flatMap.mpr ⟨task, ?_, ho⟩)
      simp [Dict.mem_values.mpr ⟨id, hget⟩, hlive]
    obtain ⟨other, hother, hm⟩ := List.mem_flatMap.mp howed
    obtain ⟨hvalue, hlive'⟩ := List.mem_filter.mp hother
    obtain ⟨name, hname⟩ := Dict.mem_values.mp hvalue
    rw [h.effective, get?_filter] at hname
    exact ⟨name, other, hname.1, hlive', hm⟩

end

-- Every run

theorem Handled.carried (h : Handled P old new) (hstate : new.state = .superseded) :
    old.state = .superseded ∧ new.superseded_by = old.superseded_by := by
  cases h with
  | claimed => cases hstate
  | reported => exact ⟨reportedState_kept hstate (.inr (.inr rfl)), rfl⟩

variable {tables after : RunTables}

theorem RevisionMove.pointer_le (h : RevisionChain P tables)
    (hm : RevisionMove P request key tables after) : tables.pointer ≤ after.pointer := by
  cases hm with
  | kept same =>
    simp only [RunTables.history, Prod.mk.injEq] at same
    simp [RunTables.pointer, same.2.1]
  | created fresh => simp [RunTables.pointer, h.created fresh]
  | decided _ added =>
    rw [added.pointer_before, RunTables.pointer, added.pointer, Option.getD_some, added.revision]
    exact Nat.le_succ _

theorem PlannedFrom.revision (h : PlannedFrom P tables submission ctx plan after) :
    ctx.revision = tables.pointer + 1 ∧ after.pointer = ctx.revision := by
  obtain ⟨current, hcurrent, hrevision⟩ := h.pointer
  obtain ⟨revisions, decisions, rfl⟩ := h.after
  refine ⟨by simp [RunTables.pointer, hcurrent, hrevision], ?_⟩
  simp [RunTables.pointer, (planDecision_ok h.planned).revision]

theorem CreatedBy.of_fixed {task? after : String → Option Task} (h : CreatedBy pointer task?)
    (hback : ∀ id new, after id = some new → ∃ old, task? id = some old ∧ TaskFixed old new)
    (hle : pointer ≤ pointer') : CreatedBy pointer' after := by
  intro id new hnew
  obtain ⟨old, hold, hfixed⟩ := hback id new hnew
  rw [hfixed.graph_revision]
  exact le_trans (h id old hold) hle

structure Lineage (tables : RunTables) : Prop where
  carried : Carried tables.task?
  created : CreatedBy tables.pointer tables.task?

theorem Lineage.handled (hl : Lineage tables)
    (hle : tables.pointer ≤ after.pointer) (found : tables.task? id = some old) (handled : Handled P old new)
    (htable : after.task? = fun name => if name = id then some new else tables.task? name) : Lineage after := by
  have hfixed : TasksFixed tables.task? after.task? := by
    intro name before hbefore
    rw [htable]
    by_cases hid : name = id
    · subst hid
      rw [found] at hbefore; cases hbefore
      exact ⟨new, if_pos rfl, handled.fixed⟩
    · exact ⟨before, (if_neg hid).trans hbefore, .refl before⟩
  constructor
  · intro name task hget hstate
    have hentry := congrFun htable name
    rw [hget] at hentry
    split at hentry
    · cases hentry
      obtain ⟨hold, hby⟩ := handled.carried hstate
      exact (hl.carried id old found hold).mono hfixed handled.fixed hby
    · exact (hl.carried name task hentry.symm hstate).mono hfixed (.refl task) rfl
  · refine hl.created.of_fixed (fun name task hget => ?_) hle
    have hentry := congrFun htable name
    rw [hget] at hentry
    split at hentry
    case isTrue hid => cases hentry; exact ⟨old, by rw [hid]; exact found, handled.fixed⟩
    · exact ⟨task, hentry.symm, .refl task⟩

theorem Lineage.decided (hl : Lineage tables)
    (planned : PlannedFrom P tables submission ctx plan after) : Lineage after := by
  have hcontext : ctx.tasks.get? = tables.task? := funext fun _ => planned.context
  have htable : after.task? = plan.working.get? := funext planned.written
  obtain ⟨hrevision, hpointer⟩ := planned.revision
  have hcreated := hl.created
  have hcarried := hl.carried
  rw [← hcontext] at hcreated hcarried
  constructor
  · rw [htable]
    exact planned.steps.carried hcreated (by rw [hrevision]; exact Nat.lt_succ_self _) hcarried
  · rw [htable, hpointer]
    refine planned.steps.created_by fun id task hget => ?_
    rw [hrevision]
    exact Nat.le_succ_of_le (hcreated id task hget)

theorem PlanMove.lineage
    (h : PlanMove P store key request after) (hle : (store.db.runs key).pointer ≤ after.pointer)
    (hl : Lineage (store.db.runs key)) : Lineage after := by
  cases h with
  | kept tasks =>
    have htable : after.task? = (store.db.runs key).task? := by
      funext name
      rw [RunTables.task?, tasks, RunTables.task?]
    constructor
    · rw [htable]
      exact hl.carried
    · rw [htable]
      exact fun id task hget => le_trans (hl.created id task hget) hle
  | opened => exact ⟨hl.carried, fun id task hget => le_trans (hl.created id task hget) hle⟩
  | claimed claimed =>
    exact hl.handled hle claimed.stored (.claimed claimed.ready) (updateTask_task? claimed.stored)
  | reported reporting =>
    have hstored := task?_of_tasksOf reporting.unchanged
    refine hl.handled hle hstored (.reported ?_) (updateTask_task? hstored)
    rw [reporting.claimed]
    simp
  | decided _ _ planned => exact hl.decided planned

theorem lineage (h : (schedulingStore P).Reach System.free store) (key : RunKey) :
    Lineage (store.db.runs key) := by
  suffices hall : RevisionChain P (store.db.runs key) ∧ Lineage (store.db.runs key) from hall.2
  refine h.invariant (I := fun store => RevisionChain P (store.db.runs key) ∧
    Lineage (store.db.runs key)) ?_ ?_
  · rintro _ ⟨projects, rfl⟩
    refine ⟨.empty, ?_, ?_⟩
    · intro id task htask
      cases htask
    · intro id task htask
      cases htask
  · rintro store request ⟨hchain, hl⟩ _
    have hmove := (serve_effect (P := P) store request).revisions key
    exact ⟨hchain.move hmove, (serve_plan P store request key).lineage (hmove.pointer_le hchain) hl⟩

def SupersededBy (task? : String → Option Task) (one other : String) : Prop :=
  ∃ task, task? one = some task ∧ task.state = .superseded ∧ task.superseded_by = some other

theorem Lineage.ends (h : Lineage tables) (hget : tables.task? id = some task) :
    ∃ last_id last, Relation.ReflTransGen (SupersededBy tables.task?) id last_id ∧
      tables.task? last_id = some last ∧ last.state ≠ .superseded ∧
      ∀ outcome ∈ task.required_outcomes, outcome ∈ last.required_outcomes := by
  let promises (name : String) : Prop := ∃ other, tables.task? name = some other ∧
    ∀ outcome ∈ task.required_outcomes, outcome ∈ other.required_outcomes
  let current (name : String) : Prop := ∀ other, tables.task? name = some other → other.state ≠ .superseded
  let rank (name : String) : Nat := ((tables.task? name).map Task.graph_revision).getD 0
  have hrank : ∀ name other, tables.task? name = some other → rank name = other.graph_revision := by
    intro name other hother
    simp [rank, hother]
  have hends : ∃ last, Relation.ReflTransGen (SupersededBy tables.task?) id last ∧ promises last ∧
      current last := by
    refine Chain.ends rank tables.pointer ?_ ?_ ⟨task, hget, fun _ ho => ho⟩
    · rintro name ⟨other, hother, houtcomes⟩
      by_cases hstate : other.state = .superseded
      · obtain ⟨next, successor, hnext, hsuccessor, hlater, hcarries⟩ := h.carried name other hother hstate
        refine .inr ⟨next, ⟨other, hother, hstate, hnext⟩, ⟨successor, hsuccessor, ?_⟩, ?_⟩
        · exact fun outcome ho => hcarries outcome (houtcomes outcome ho)
        · rw [hrank _ _ hother, hrank _ _ hsuccessor]
          exact hlater
      · refine .inl fun other' hother' => ?_
        rw [hother] at hother'; cases hother'
        exact hstate
    · rintro name ⟨other, hother, -⟩
      rw [hrank _ _ hother]
      exact h.created name other hother
  obtain ⟨last, hpath, ⟨other, hother, houtcomes⟩, hcurrent⟩ := hends
  exact ⟨last, other, hpath, hother, hcurrent other hother, houtcomes⟩

/-- After an accepted decision every outcome of every task its run ever had is
promised by a live one, and from each task, superseded or not, the successors
lead to one that is not superseded and promises as much. -/
theorem obligations_survive (h : (schedulingStore P).Reach System.free store) (key : RunKey)
    (hdecided : submitDecision P store.db key grant_id payload principal command_key clock =
      (.accepted receipt true, db')) : (∀ earlier, (schedulingStore P).Path System.free earlier store → ∀ id task,
      earlier.db.task? key id = some task → ∃ now, db'.task? key id = some now ∧
        now.required_outcomes = task.required_outcomes) ∧
    (∀ id task, db'.task? key id = some task → ∀ outcome ∈ task.required_outcomes,
      Promised (db'.task? key) outcome) ∧
    ∀ id task, db'.task? key id = some task → ∃ last_id last,
      Relation.ReflTransGen (SupersededBy (db'.task? key)) id last_id ∧
      db'.task? key last_id = some last ∧ last.state ≠ .superseded ∧
      ∀ outcome ∈ task.required_outcomes, outcome ∈ last.required_outcomes := by
  obtain ⟨submission, ctx, plan, -, hplanned⟩ := submitDecision_planned hdecided
  have htable : db'.task? key = plan.working.get? := funext hplanned.written
  refine ⟨?_, ?_, ?_⟩
  · intro earlier hpath id task hget
    obtain ⟨middle, hmiddle, hfixed⟩ := path_fixed hpath hget
    obtain ⟨now, hnow, hr⟩ := hplanned.steps.redecided (hplanned.context.trans hmiddle)
    refine ⟨now, ?_, hr.required_outcomes.trans hfixed.required_outcomes⟩
    rw [htable]
    exact hnow
  · rw [htable]
    exact fun id task hget outcome ho => (planDecision_ok hplanned.planned).promised hget ho
  · exact fun id task hget => ((lineage h key).decided hplanned).ends hget

end

namespace Sample

def replaceable : List Request := ready ++ [.createExpansion key "g" (expansion "f") 0]

def replacement : Json := decision "d2" 1 (expand "f" [successor "1" "d1.1"] ["d2.1"])

def decidedState (answer : Answer × Db) : Option TaskState :=
  match answer.1 with
  | .accepted _ true => (answer.2.task? key "d1.1").map Task.state
  | _ => none

end Sample

open Sample (platform after replaceable key replacement role clock decidedState)

/-- The superseded task of an accepted decision leads to one that is not superseded. -/
theorem obligations_survive_replaced : ∃ receipt db' task last_id last,
      submitDecision platform (after replaceable).db key "g"
        replacement role "2" clock = (.accepted receipt true, db') ∧
      db'.task? key "d1.1" = some task ∧ task.state = .superseded ∧
      Relation.ReflTransGen (SupersededBy (db'.task? key)) "d1.1" last_id ∧
      db'.task? key last_id = some last ∧ last.state ≠ .superseded := by
  have hreach := Sample.after_reach replaceable
  have hstate : decidedState (submitDecision platform
      (after replaceable).db key "g" replacement role "2"
        clock) = some .superseded := by
    decide +kernel
  generalize after replaceable = store at hreach hstate ⊢
  generalize hanswer : submitDecision platform store.db key "g" replacement
    role "2" clock = answer at hstate ⊢
  obtain ⟨answer, db'⟩ := answer
  unfold decidedState at hstate
  split at hstate
  case h_1 receipt hfresh =>
    cases hfresh
    obtain ⟨task, hget, hsuperseded⟩ := Option.map_eq_some_iff.mp hstate
    obtain ⟨last_id, last, hpath, hlast, hend, -⟩ :=
      (obligations_survive hreach key hanswer).2.2 "d1.1" task hget
    exact ⟨receipt, db', task, last_id, last, rfl, hget, hsuperseded, hpath, hlast, hend⟩
  · cases hstate

end Karajan.Scheduling
