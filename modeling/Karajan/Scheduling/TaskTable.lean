import Karajan.Scheduling.PlanSteps
import Karajan.Scheduling.Handover

/-!
# The tasks of a run

`TableMove` is what one request does to the tasks of a run: a decision makes
them the working tasks of its plan, a claim or a report rewrites one of them,
and nothing else touches them. `TaskFixed` is what none of the three changes.
-/

namespace Karajan.Scheduling

open Dict Check
variable {db db' : Db} {id : String}

def RunTables.task? (tables : RunTables) (id : String) : Option Task :=
  (tables.scheduling_tasks.get? id).map Row.record

def Db.task? (db : Db) (key : RunKey) (id : String) : Option Task := (db.runs key).task? id

theorem Db.task?_eq_some : db.task? key id = some task ↔
    ∃ row, (db.tasks key).get? id = some row ∧ row.record = task := by
  simp [Db.task?, RunTables.task?, Db.tasks]

-- What a decision was planned from

structure PlannedFrom (P : Platform) (tables : RunTables) (submission : Submission)
    (ctx : PlanContext) (plan : PlannedDecision) (after : RunTables) : Prop where
  granted : grantRow P tables submission.parsed.grant_id = .ok ctx.grant
  tasks : tasksOf P tables = .ok ctx.tasks
  decision_id : ctx.decision_id = submission.parsed.decision_id
  producers : ∃ run, runRow P tables = .ok run ∧
    ctx.producers = run.definitions.steps ++ ctx.tasks.keys
  pointer : ∃ current, tables.task_graph_current = some current ∧ ctx.revision = current + 1
  planned : planDecision P ctx tables.task_expansions submission.parsed.actions = .ok plan
  new : tables.scheduling_decisions.get? submission.command_key = none
  after : ∃ revisions decisions, after = { tables with
    task_graph_current := some plan.revision
    scheduling_tasks := writeTasks plan.toPlan tables.scheduling_tasks
    scheduling_task_versions := writeVersions plan.toPlan tables.scheduling_task_versions
    task_expansions := writeExpansions plan.toPlan tables.task_expansions
    task_graph_revisions := revisions
    scheduling_decisions := decisions }

theorem expansionsOf_ok (h : expansionsOf P tables = .ok expansions) : expansions = tables.task_expansions := by
  simp only [expansionsOf, bind_ok, pure_ok] at h
  obtain ⟨_, -, rfl⟩ := h
  rfl

variable {after : RunTables}

theorem Decided.plannedFrom (h : Decided P db submission clock grant current plan receipt after) :
    ∃ ctx, PlannedFrom P (db.runs submission.key) submission ctx plan after := by
  have hcommit := commitDecision_ok h.committed
  have hplan := h.planned
  simp only [adjudicatePlan, bind_ok, pure_ok, Prod.mk.injEq] at hplan
  obtain ⟨run, hrun, grant', hgrant, _, -, _, -, current', -, _, -, tasks, htasks, expansions,
    hexpansions, plan', hplan, rfl, rfl, rfl⟩ := hplan
  rw [expansionsOf_ok hexpansions] at hplan
  exact ⟨_, hgrant, htasks, rfl, ⟨_, hrun, rfl⟩, ⟨current', hcommit.pointer, rfl⟩, hplan, hcommit.fresh_decision,
    _, _, hcommit.after⟩

theorem PlannedFrom.context (h : PlannedFrom P tables submission ctx plan after) :
    ctx.tasks.get? id = (tables.scheduling_tasks.get? id).map Row.record := tasksOf_ok h.tasks

theorem PlannedFrom.written (h : PlannedFrom P tables submission ctx plan after) (id : String) :
    (after.scheduling_tasks.get? id).map Row.record = plan.working.get? id := by
  obtain ⟨revisions, decisions, rfl⟩ := h.after
  rw [get?_writeTasks]
  cases hworking : plan.working.get? id with
  | some task => rfl
  | none =>
    cases hrow : tables.scheduling_tasks.get? id with
    | none => rfl
    | some row =>
      obtain ⟨new, hnew, -⟩ := (planDecision_ok h.planned).inv.kept id row.record
        (by rw [h.context, hrow]; rfl)
      rw [hworking] at hnew; cases hnew

-- What one request does

inductive Handled (P : Platform) (old : Task) : Task → Prop
  | claimed {principal : Principal} {claim_id : String} {now : Rat}
      (ready : old.state ≠ .completed ∧ old.state ≠ .failed ∧ old.state ≠ .cancelled ∧
        old.state ≠ .superseded) :
      Handled P old (claimedTask P old principal claim_id now)
  | reported {report : ExecutionReport} {principal : Principal} {trusted : Bool} {now : Rat}
      (claimed : old.claim_id ≠ none) :
      Handled P old (reportedTask P old report principal trusted now)

/-- What one request does to the tasks of a run, to their archived versions and to
the sets they are members of. -/
inductive PlanMove (P : Platform) (store : Store) (key : RunKey) : Request → RunTables → Prop
  | kept {after : RunTables} (tasks : after.scheduling_tasks = (store.db.runs key).scheduling_tasks)
      (versions : after.scheduling_task_versions = (store.db.runs key).scheduling_task_versions)
      (expansions : after.task_expansions = (store.db.runs key).task_expansions) :
      PlanMove P store key request after
  | opened {expansion : Expansion}
      (fresh : (store.db.runs key).task_expansions.get? expansion.expansion_id = none)
      (memberless : expansion.state = .opened ∧ expansion.members = .empty) :
      PlanMove P store key request { store.db.runs key with
        task_expansions := (store.db.runs key).task_expansions.put expansion.expansion_id expansion }
  | claimed {id : String} {document : Task} {grant : Grant} {admission : Admitted}
      {claims : Dict String (Row Claim)}
      (claimed : Claimed P store.db key payload command_key clock claim_key id document grant admission) :
      PlanMove P store key (.claim key payload principal command_key clock)
        { updateTask (store.db.runs key) id
            (claimedTask P document principal (claimId P key claim_key) (clock 1)) with
          task_claims := claims }
  | reported {id : String} {document : Task} {report : ExecutionReport}
      (reporting : Reporting P store.db key id payload principal trusted document claim_id report) :
      PlanMove P store key (.reportExecution key id payload principal trusted now)
        (updateTask (store.db.runs key) id (reportedTask P document report principal trusted now))
  | decided {submission : Submission} {ctx : PlanContext} {plan : PlannedDecision} {after : RunTables}
      (read : readSubmission P key grant_id payload principal command_key = .ok submission)
      (owned : owned P store.db key.project_id = .ok ())
      (planned : PlannedFrom P (store.db.runs key) submission ctx plan after) :
      PlanMove P store key (.submitDecision key grant_id payload principal command_key clock) after

theorem PlanMove.of_setRun
    (hr : db'.runs = (store.db.setRun key' tables).runs) (h : PlanMove P store key' request tables) :
    PlanMove P store key request (db'.runs key) := by
  rw [hr]
  by_cases hkey : key = key'
  · subst hkey
    rwa [Db.setRun_runs_self]
  · rw [Db.setRun_runs_of_ne hkey]
    exact .kept rfl rfl rfl

theorem Effect.plan (h : Effect P store request db') (key : RunKey) :
    PlanMove P store key request (db'.runs key) := by
  cases h with
  | unchanged | resources | credentialIssued => exact .kept rfl rfl rfl
  | runCreated | grantIssued | grantDelegated | grantRevoked | refusalRecorded =>
    exact .of_setRun rfl (.kept rfl rfl rfl)
  | expansionCreated _ _ _ _ fresh memberless => exact .of_setRun rfl (.opened fresh memberless)
  | claimed _ _ _ _ _ _ claimed => exact .of_setRun rfl (.claimed claimed)
  | reported _ _ _ reporting => exact .of_setRun rfl (.reported reporting)
  | decided submission _ _ _ _ _ read decided =>
    obtain ⟨ctx, hplanned⟩ := decided.plannedFrom
    cases (readSubmission_ok read).1
    exact .of_setRun rfl (.decided read decided.owned hplanned)

theorem serve_plan (P : Platform) (store : Store) (request : Request) (key : RunKey) :
    PlanMove P store key request ((store.serve P request).db.runs key) :=
  (serve_effect store request).plan key

inductive TableMove (P : Platform) (store : Store) (key : RunKey) :
    Request → (String → Option Task) → Prop
  | same : TableMove P store key request (store.db.task? key)
  | handled {id : String} {old new : Task} (found : store.db.task? key id = some old)
      (handled : Handled P old new) :
      TableMove P store key request
        (fun name => if name = id then some new else store.db.task? key name)
  | decided {submission : Submission} {ctx : PlanContext} {plan : PlannedDecision} {after : RunTables}
      (read : readSubmission P key grant_id payload principal command_key = .ok submission)
      (planned : PlannedFrom P (store.db.runs key) submission ctx plan after) :
      TableMove P store key (.submitDecision key grant_id payload principal command_key clock)
        plan.working.get?

theorem updateTask_task? (found : tables.task? id = some old) :
    (updateTask tables id new).task? = fun name => if name = id then some new else tables.task? name := by
  funext name
  simp only [RunTables.task?, updateTask, get?_modify]
  split
  case isTrue hname =>
    obtain ⟨row, hrow, -⟩ := Option.map_eq_some_iff.mp found
    rw [hname, hrow]
    rfl
  · rfl

theorem task?_of_tasksOf (h : ∃ tasks, tasksOf P (db.runs key) = .ok tasks ∧
    tasks.get? id = some document) : db.task? key id = some document :=
  Db.task?_eq_some.mpr (found_of_tasksOf h)

theorem Claimed.stored (h : Claimed P db key payload command_key clock claim_key id document grant admission) :
    db.task? key id = some document := by
  obtain ⟨tasks, htasks, hget, -⟩ := h.unchanged
  exact task?_of_tasksOf ⟨tasks, htasks, hget⟩

theorem PlanMove.table (h : PlanMove P store key request after) : TableMove P store key request after.task? := by
  cases h with
  | kept tasks =>
    have htable : after.task? = store.db.task? key := by
      funext name
      rw [RunTables.task?, tasks, Db.task?, RunTables.task?]
    rw [htable]
    exact .same
  | opened => exact .same
  | claimed claimed =>
    change TableMove P store key _ (updateTask (store.db.runs key) _ _).task?
    rw [updateTask_task? claimed.stored]
    exact .handled claimed.stored (.claimed claimed.ready)
  | reported reporting =>
    have hstored := task?_of_tasksOf reporting.unchanged
    rw [updateTask_task? hstored]
    refine .handled hstored (.reported ?_)
    rw [reporting.claimed]
    simp
  | @decided _ _ _ _ _ _ _ plan _ read _ planned =>
    have htable : after.task? = plan.working.get? := funext planned.written
    rw [htable]
    exact .decided read planned

theorem serve_table (P : Platform) (store : Store) (request : Request) (key : RunKey) :
    TableMove P store key request ((store.serve P request).db.task? key) :=
  (serve_plan P store request key).table

theorem submitDecision_planned (h : submitDecision P db key grant_id payload principal command_key clock =
      (.accepted receipt true, db')) :
    ∃ submission ctx plan, readSubmission P key grant_id payload principal command_key = .ok submission ∧
      PlannedFrom P (db.runs key) submission ctx plan (db'.runs key) := by
  unfold submitDecision at h
  split at h
  · cases h
  case h_2 submission hread =>
    split at h
    case h_1 receipt' fresh after hdecided =>
      cases h
      rcases decisionTransaction_ok hdecided with ⟨hreplayed, -⟩ | ⟨-, _, _, plan, tables, hd, rfl⟩
      · cases hreplayed
      · obtain ⟨ctx, hplanned⟩ := hd.plannedFrom
        cases (readSubmission_ok hread).1
        exact ⟨submission, ctx, plan, hread, by rw [Db.setRun_runs_self]; exact hplanned⟩
    · cases h
    · split at h <;> cases h

def decisionMeets (P : Platform) (ok : Db → Submission → Bool) (store : Store) : Request → Bool
  | .submitDecision key grant_id payload principal command_key _ =>
    match readSubmission P key grant_id payload principal command_key with
    | .ok submission =>
      (store.db.runs key).scheduling_decisions.contains command_key || ok store.db submission
    | .error _ => true
  | _ => true

theorem decisionMeets_ok (h : decisionMeets P ok store
      (.submitDecision key grant_id payload principal command_key clock) = true)
    (read : readSubmission P key grant_id payload principal command_key = .ok submission)
    (planned : PlannedFrom P (store.db.runs key) submission ctx plan after) : ok store.db submission = true := by
  obtain ⟨-, -, hcommand⟩ := readSubmission_ok read
  have hnew := planned.new
  rw [hcommand] at hnew
  simpa [decisionMeets, read, Dict.contains_eq_false.mpr hnew] using h

-- What no request changes of a task

structure TaskFixed (old new : Task) : Prop where
  task_id : new.task_id = old.task_id
  graph_revision : new.graph_revision = old.graph_revision
  execution_kind_ref : new.execution_kind_ref = old.execution_kind_ref
  model_ref : new.model_ref = old.model_ref
  tool_refs : new.tool_refs = old.tool_refs
  inputs : new.inputs = old.inputs
  inferred_depends_on : new.inferred_depends_on = old.inferred_depends_on
  required : new.required = old.required
  write_zone : new.write_zone = old.write_zone
  path_scope : new.path_scope = old.path_scope
  required_outcomes : new.required_outcomes = old.required_outcomes
  grant_id : new.grant_id = old.grant_id

theorem TaskFixed.refl (task : Task) : TaskFixed task task :=
  ⟨rfl, rfl, rfl, rfl, rfl, rfl, rfl, rfl, rfl, rfl, rfl, rfl⟩

theorem TaskFixed.trans (h : TaskFixed a b) (h' : TaskFixed b c) : TaskFixed a c where
  task_id := h'.task_id.trans h.task_id
  graph_revision := h'.graph_revision.trans h.graph_revision
  execution_kind_ref := h'.execution_kind_ref.trans h.execution_kind_ref
  model_ref := h'.model_ref.trans h.model_ref
  tool_refs := h'.tool_refs.trans h.tool_refs
  inputs := h'.inputs.trans h.inputs
  inferred_depends_on := h'.inferred_depends_on.trans h.inferred_depends_on
  required := h'.required.trans h.required
  write_zone := h'.write_zone.trans h.write_zone
  path_scope := h'.path_scope.trans h.path_scope
  required_outcomes := h'.required_outcomes.trans h.required_outcomes
  grant_id := h'.grant_id.trans h.grant_id

def TasksFixed (task? after : String → Option Task) : Prop :=
  ∀ id old, task? id = some old → ∃ new, after id = some new ∧ TaskFixed old new

theorem TasksFixed.trans {task? middle after : String → Option Task} (h : TasksFixed task? middle)
    (h' : TasksFixed middle after) : TasksFixed task? after := by
  intro id old hold
  obtain ⟨new, hnew, hfixed⟩ := h id old hold
  obtain ⟨new', hnew', hfixed'⟩ := h' id new hnew
  exact ⟨new', hnew', hfixed.trans hfixed'⟩

theorem Handled.fixed (h : Handled P old new) : TaskFixed old new := by
  cases h <;> exact ⟨rfl, rfl, rfl, rfl, rfl, rfl, rfl, rfl, rfl, rfl, rfl, rfl⟩

theorem Handled.claim_id (h : Handled P old new) (hclaim : old.claim_id ≠ none) : new.claim_id ≠ none := by
  cases h with
  | claimed => simp
  | reported => simpa using hclaim

theorem Task.live_congr {old new : Task} (h : new.state = old.state) : new.live = old.live := by
  simp [Task.live, h]

structure Redecided (old new : Task) : Prop extends TaskFixed old new where
  claim_id : new.claim_id = old.claim_id
  state : new.live = true → new.state = old.state

theorem Redecided.refl (task : Task) : Redecided task task := ⟨.refl task, rfl, fun _ => rfl⟩

theorem Redecided.trans (h : Redecided a b) (h' : Redecided b c) : Redecided a c where
  toTaskFixed := h.toTaskFixed.trans h'.toTaskFixed
  claim_id := h'.claim_id.trans h.claim_id
  state hlive := by
    have hstate := h'.state hlive
    rw [Task.live_congr hstate] at hlive
    exact hstate.trans (h.state hlive)

variable {working : Dict String Task}

theorem TaskEdit.redecided
    (h : TaskEdit ctx working action id task edited) : Redecided task (revisedTask P task edited) := by
  cases h <;>
    exact ⟨⟨rfl, rfl, rfl, rfl, rfl, rfl, rfl, rfl, rfl, rfl, rfl, rfl⟩, rfl, fun _ => rfl⟩

theorem retiredTask_redecided (P : Platform) (ctx : PlanContext) (task : Task) (task_id : String) :
    Redecided task (retiredTask P ctx task task_id) where
  toTaskFixed := ⟨rfl, rfl, rfl, rfl, rfl, rfl, rfl, rfl, rfl, rfl, rfl, rfl⟩
  claim_id := rfl
  state hlive := by rw [Task.live_superseded rfl] at hlive; cases hlive

theorem WorkStep.redecided (h : WorkStep P ctx actions working working') (hget : working.get? id = some old) :
    ∃ new, working'.get? id = some new ∧ Redecided old new := by
  cases h with
  | @edited id' _ task edited _ _ found _ edit =>
    by_cases hid : id' = id
    · subst hid
      rw [hget] at found; cases found
      exact ⟨_, get?_put_self, edit.redecided⟩
    · exact ⟨old, by rw [get?_put_of_ne hid, hget], .refl old⟩
  | added _ _ _ fresh =>
    exact ⟨old, get?_put_new fresh hget, .refl old⟩
  | @replaced _ _ _ _ replaced previous _ _ _ fresh _ found =>
    have hne : ∀ fields, working.get? (memberId P ctx.decision_id fields) = none →
        memberId P ctx.decision_id fields ≠ id := by
      rintro fields hfresh rfl
      rw [hget] at hfresh; cases hfresh
    rw [get?_put_of_ne (hne _ fresh)]
    by_cases hid : replaced = id
    · subst hid
      rw [hget] at found; cases found
      exact ⟨_, get?_put_self, retiredTask_redecided P ctx old _⟩
    · exact ⟨old, by rw [get?_put_of_ne hid, hget], .refl old⟩

theorem WorkStep.tasks_fixed (h : WorkStep P ctx actions working working') :
    TasksFixed working.get? working'.get? := by
  intro id old hold
  obtain ⟨new, hnew, hr⟩ := h.redecided hold
  exact ⟨new, hnew, hr.toTaskFixed⟩

theorem WorkSteps.redecided (h : WorkSteps P ctx actions working working') (hget : working.get? id = some old) :
    ∃ new, working'.get? id = some new ∧ Redecided old new := by
  induction h with
  | refl => exact ⟨old, hget, .refl old⟩
  | tail _ hstep ih =>
    obtain ⟨middle, hmiddle, hkept⟩ := ih
    obtain ⟨new, hnew, hkept'⟩ := hstep.redecided hmiddle
    exact ⟨new, hnew, hkept.trans hkept'⟩

theorem WorkSteps.tasks_fixed (h : WorkSteps P ctx actions working working') :
    TasksFixed working.get? working'.get? := by
  intro id old hold
  obtain ⟨new, hnew, hr⟩ := WorkSteps.redecided h hold
  exact ⟨new, hnew, hr.toTaskFixed⟩

def TasksNamed (task? : String → Option Task) : Prop := ∀ id task, task? id = some task → task.task_id = id

theorem TasksNamed.put (h : TasksNamed working.get?)
    (hname : task.task_id = id) : TasksNamed (working.put id task).get? := by
  intro id' task' hget
  rcases of_put hget with ⟨hid, rfl⟩ | ⟨-, hget⟩
  · exact hname.trans hid
  · exact h id' task' hget

theorem WorkSteps.named (h : WorkSteps P ctx actions working working')
    (hnamed : TasksNamed working.get?) : TasksNamed working'.get? := by
  induction h with
  | refl => exact hnamed
  | tail _ hstep ih =>
    cases hstep with
    | edited _ _ found _ edit => exact ih.put (edit.redecided.task_id.trans (ih _ _ found))
    | added => exact ih.put rfl
    | @replaced _ _ _ _ _ previous _ _ _ _ _ found =>
      refine (ih.put ?_).put rfl
      exact ih _ previous found

theorem PlannedFrom.steps (h : PlannedFrom P tables submission ctx plan after) :
    WorkSteps P ctx submission.parsed.actions ctx.tasks plan.working := planDecision_steps h.planned

theorem TableMove.fixed (h : TableMove P store key request table) (hget : store.db.task? key id = some old) :
    ∃ new, table id = some new ∧ TaskFixed old new := by
  cases h with
  | same => exact ⟨old, hget, .refl old⟩
  | @handled _ id' _ new found handled =>
    by_cases hid : id = id'
    · subst hid
      rw [hget] at found; cases found
      exact ⟨new, if_pos rfl, handled.fixed⟩
    · exact ⟨old, (if_neg hid).trans hget, .refl old⟩
  | decided _ planned =>
    obtain ⟨new, hnew, hkept⟩ := planned.steps.redecided (planned.context.trans hget)
    exact ⟨new, hnew, hkept.toTaskFixed⟩

theorem path_fixed (h : (schedulingStore P).Path ok store later) (hget : store.db.task? key id = some old) :
    ∃ new, later.db.task? key id = some new ∧ TaskFixed old new := by
  induction h with
  | refl => exact ⟨old, hget, .refl old⟩
  | step _ _ ih =>
    obtain ⟨middle, hmiddle, hfixed⟩ := ih
    obtain ⟨new, hnew, hfixed'⟩ := (serve_table P _ _ key).fixed hmiddle
    exact ⟨new, hnew, hfixed.trans hfixed'⟩

end Karajan.Scheduling
