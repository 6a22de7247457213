import Karajan.Scheduling.Narrowing

/-!
# A plan, task by task

A decision reaches its tasks by three kinds of step: it edits one live task, it
adds one, or it adds one in place of another. `planDecision_steps` says that
these are all, so an invariant of the working tasks is three cases, with the
action that caused each step at hand.
-/

namespace Karajan.Scheduling

open List Check
variable {id : String}

-- Editing one task

/-- What an action makes of the task it edits, before its revision is counted. -/
inductive TaskEdit (ctx : PlanContext) (working : Dict String Task) (action : ParsedAction)
    (id : String) (task : Task) : Task → Prop
  | bound {alias_id role_ref : String} (name : action.name = .bindRole)
      (stated : field action.fields "role_alias" = .str alias_id)
      (granted : ctx.grant.role_refs.get? alias_id = some role_ref)
      (unclaimed : task.state ≠ .claimed) :
      TaskEdit ctx working action id task
        { task with role_alias := some alias_id, role_ref := some role_ref }
  | depended {dependencies : List String} (name : action.name = .setDependencies)
      (stated : dependencies = sorted (statedTexts (field action.fields "depends_on")))
      (known : ∀ name ∈ dependencies, ∃ other, working.get? name = some other)
      (unclaimed : task.state ≠ .claimed) :
      TaskEdit ctx working action id task
        { task with
          declared_depends_on := dependencies
          depends_on := sortedSet (dependencies ++ task.inferred_depends_on) }
  | prioritized {priority : Nat} (name : action.name = .setPriority) :
      TaskEdit ctx working action id task { task with priority }
  | dispatched {dispatch : Dispatch} (name : action.name = .requestDispatch) :
      TaskEdit ctx working action id task { task with dispatch }

def revisedTask (P : Platform) (task edited : Task) : Task :=
  resealTask P { edited with revision := task.revision + 1 }

def Plan.revise (P : Platform) (plan : Plan) (id : String) (revised : Task) : Plan :=
  { plan with
    working := plan.working.put id revised
    versions := archiveVersion revised plan.versions
    expansions := refreshMember P plan.expansions revised }

structure Revising (P : Platform) (ctx : PlanContext) (plan : Plan) (action : ParsedAction)
    (id : String) (task edited : Task) (plan' : Plan) : Prop where
  stated : field action.fields "task_id" = .str id
  found : plan.working.get? id = some task
  live : task.live = true
  edit : TaskEdit ctx plan.working action id task edited
  after : plan' = plan.revise P id (revisedTask P task edited)

theorem bindRole_ok (hname : action.name = .bindRole)
    (h : bindRole ctx task action.fields id pointer = .ok edited) :
    TaskEdit ctx working action id task edited := by
  simp only [bindRole, bind_ok, need_ok, ensure_ok, decide_eq_true_eq, pure_ok] at h
  obtain ⟨alias_id, hstated, role_ref, hgranted, _, hunclaimed, rfl⟩ := h
  exact .bound hname (boundedIdentifier_ok hstated) hgranted hunclaimed

theorem setDependencies_ok (hname : action.name = .setDependencies)
    (h : setDependencies plan task action.fields id pointer = .ok edited) :
    TaskEdit ctx plan.working action id task edited := by
  simp only [setDependencies, bind_ok, ensure_ok, beq_iff_eq, length_eq_zero_iff,
    decide_eq_true_eq, pure_ok] at h
  obtain ⟨dependencies, hstated, _, hknown, _, -, _, hunclaimed, rfl⟩ := h
  refine .depended hname (actionIdentifiers_ok hstated) ?_ hunclaimed
  intro name hm
  cases hget : plan.working.get? name with
  | some other => exact ⟨other, rfl⟩
  | none =>
    have hunknown : name ∈ sorted (dependencies.filter fun name => !plan.working.contains name) := by
      simp [hm, Dict.contains_eq_false.mpr hget]
    rw [hknown] at hunknown
    cases hunknown

theorem setPriority_ok (hname : action.name = .setPriority)
    (h : setPriority task action.fields pointer = .ok edited) : TaskEdit ctx working action id task edited := by
  simp only [setPriority, bind_ok, pure_ok] at h
  obtain ⟨_, -, rfl⟩ := h
  exact .prioritized hname

theorem requestDispatch_ok (hname : action.name = .requestDispatch)
    (h : requestDispatch task action.fields pointer = .ok edited) :
    TaskEdit ctx working action id task edited := by
  simp only [requestDispatch, bind_ok, pure_ok] at h
  obtain ⟨_, -, rfl⟩ := h
  exact .dispatched hname

theorem editTask_ok (hedit : ∀ id task edited, edit task id = .ok edited →
      TaskEdit ctx plan.working action id task edited)
    (h : editTask P plan edit action.fields pointer = .ok plan') :
    ∃ id task edited, Revising P ctx plan action id task edited plan' := by
  simp only [editTask, bind_ok, need_ok, ensure_ok, pure_ok] at h
  obtain ⟨id, hstated, task, hfound, _, hlive, edited, hedited, rfl⟩ := h
  exact ⟨id, task, edited, boundedIdentifier_ok hstated, hfound, hlive, hedit id task edited hedited, rfl⟩

-- Adding one task

/-- The identity a decision gives the task a specification describes. -/
def memberId (P : Platform) (decision_id : String) (fields : Fields) : String :=
  decision_id ++ "." ++ textOf P (field fields "item_key")

theorem taskIdentity_ok (h : taskIdentity decision_id item_key = .ok id) :
    id = decision_id ++ "." ++ item_key := by
  simp only [taskIdentity, bind_ok, pure_ok] at h
  obtain ⟨_, -, _, -, rfl⟩ := h
  rfl

def retiredTask (P : Platform) (ctx : PlanContext) (previous : Task) (task_id : String) : Task :=
  resealTask P (supersededTask ctx previous task_id)

def Plan.retire (P : Platform) (ctx : PlanContext) (plan : Plan) (replaced task_id : String)
    (previous : Task) : Plan :=
  { plan with
    replaced_within := plan.replaced_within.put replaced task_id
    versions := archiveVersion (supersededTask ctx previous task_id) plan.versions
    working := plan.working.put replaced (retiredTask P ctx previous task_id)
    nodes_superseded := plan.nodes_superseded ++ [replaced] }

/-- A specification retires the task it replaces, where it replaces one. -/
inductive Superseding (P : Platform) (ctx : PlanContext) (plan : Plan) (spec : TaskSpec)
    (task_id : String) : Plan → Prop
  | fresh (alone : spec.supersedes = none) : Superseding P ctx plan spec task_id plan
  | replaced {replaced : String} {previous : Task} (replaces : spec.supersedes = some replaced)
      (found : plan.working.get? replaced = some previous) (live : previous.live = true)
      (carried : ∀ outcome ∈ previous.required_outcomes, outcome ∈ spec.required_outcomes) :
      Superseding P ctx plan spec task_id (plan.retire P ctx replaced task_id previous)

theorem supersede_ok (h : supersede P ctx plan spec task_id pointer = .ok plan') :
    Superseding P ctx plan spec task_id plan' := by
  unfold supersede at h
  split at h
  case h_1 hnone => cases h; exact .fresh hnone
  case h_2 replaced hsome =>
    simp only [bind_ok, need_ok, ensure_ok, beq_iff_eq, length_eq_zero_iff, notIn_eq_nil, pure_ok] at h
    obtain ⟨previous, hfound, _, hlive, _, -, _, hcarried, rfl⟩ := h
    exact .replaced hsome hfound hlive hcarried

def Plan.addTask (plan : Plan) (task_id : String) (document : Task) : Plan :=
  { plan with
    working := plan.working.put task_id document
    document_digests := plan.document_digests.put task_id document.digest
    versions := archiveVersion document plan.versions
    nodes_added := plan.nodes_added ++ [task_id] }

def Member.of (P : Platform) (fields : Fields) (document : Task) : Member :=
  { task_id := document.task_id
    item_key := textOf P (field fields "item_key")
    revision := some 1
    digest := document.digest
    required_outcomes := document.required_outcomes
    required := document.required
    replaced := none }

structure Adding (P : Platform) (ctx : PlanContext) (expansion : Expansion) (plan : Plan)
    (item : Json) (fields : Fields) (spec : TaskSpec) (middle : Plan) : Prop where
  stated : item = .object fields
  accepted : AcceptedSpec ctx.grant.toAuthority ctx.tasks ctx.producers fields spec
  fresh : plan.working.get? (memberId P ctx.decision_id fields) = none
  superseding : Superseding P ctx plan spec (memberId P ctx.decision_id fields) middle

theorem addMember_ok (h : addMember P ctx expansion pointer staged item = .ok staged') :
    ∃ fields spec middle, Adding P ctx expansion staged.1 item.1 fields spec middle ∧
      staged'.1 = middle.addTask (memberId P ctx.decision_id fields)
        (memberDocument P ctx expansion spec (memberId P ctx.decision_id fields)) ∧
      staged'.2 = staged.2.put (memberId P ctx.decision_id fields) (.of P fields
        (memberDocument P ctx expansion spec (memberId P ctx.decision_id fields))) := by
  simp only [addMember, bind_ok, ensure_ok, Bool.not_eq_true', pure_ok] at h
  obtain ⟨spec, hspec, _, -, task_id, hid, _, hfresh, _, -, middle, hsup, rfl⟩ := h
  obtain ⟨fields, hstated, haccepted⟩ := validateTaskSpec_ok hspec
  have hname : task_id = memberId P ctx.decision_id fields := by
    rw [taskIdentity_ok hid, haccepted.item_key, memberId]
  subst hname
  refine ⟨fields, spec, middle, ⟨hstated, haccepted, Dict.contains_eq_false.mp hfresh,
    supersede_ok hsup⟩, rfl, ?_⟩
  rw [haccepted.item_key]
  rfl

theorem Superseding.get?_none (h : Superseding P ctx plan spec task_id plan')
    (hnone : plan.working.get? id = none) : plan'.working.get? id = none := by
  cases h with
  | fresh => exact hnone
  | replaced _ found =>
    rw [Plan.retire, Dict.get?_put_of_ne]
    · exact hnone
    · rintro rfl
      rw [hnone] at found; cases found

theorem Superseding.replaced_within {replaced : String} (h : Superseding P ctx plan spec task_id plan')
    (hget : plan'.replaced_within.get? replaced = some successor) :
    plan.replaced_within.get? replaced = some successor ∨
      spec.supersedes = some replaced ∧ successor = task_id := by
  cases h with
  | fresh => exact .inl hget
  | replaced replaces =>
    simp only [Plan.retire, Dict.get?_put] at hget
    split at hget
    case isTrue hid => cases hget; subst hid; exact .inr ⟨replaces, rfl⟩
    · exact .inl hget

-- One action

inductive Applied (P : Platform) (ctx : PlanContext) (plan : Plan) (action : ParsedAction) : Plan → Prop
  | expanded {expansion_id pointer : String} {expansion : Expansion} {declared : List Json}
      {middle : Plan} {members : Dict String Member} (name : action.name = .expandGraph)
      (stated : field action.fields "expansion_id" = .str expansion_id)
      (found : plan.expansions.get? expansion_id = some expansion)
      (isOpen : expansion.state = .opened) (items : field action.fields "tasks" = .list declared)
      (staged : declared.zipIdx.foldlM (addMember P ctx expansion pointer) (plan, expansion.members) =
        .ok (middle, members)) :
      Applied P ctx plan action { middle with
        expansions := middle.expansions.put expansion_id (resealExpansion P { expansion with
          members := pinMembers middle.working (followReplaced middle members)
          batches := expansion.batches + 1 }) }
  | closed {expansion_id : String} {expansion closed : Expansion} {known : List String}
      (name : action.name = .seal) (stated : field action.fields "expansion_id" = .str expansion_id)
      (found : plan.expansions.get? expansion_id = some expansion)
      (isSealed : closed.state = .sealed) (members : closed.members = expansion.members) :
      Applied P ctx plan action { plan with
        expansions := plan.expansions.put expansion_id closed
        sealed := plan.sealed.put expansion_id known }
  | revised {id : String} {task edited : Task} {after : Plan}
      (revising : Revising P ctx plan action id task edited after) :
      Applied P ctx plan action after

theorem ownExpansion_ok (h : ownExpansion ctx plan expansion_id pointer detail notFound fields = .ok expansion) :
    plan.expansions.get? expansion_id = some expansion ∧ expansion.state = .opened := by
  simp only [ownExpansion, requireExpansionOpen, bind_ok, need_ok, ensure_ok, decide_eq_true_eq, pure_ok] at h
  obtain ⟨_, hfound, _, hopen, _, -, rfl⟩ := h
  exact ⟨hfound, hopen⟩

theorem expandGraph_ok (hname : action.name = .expandGraph)
    (h : expandGraph P ctx plan action.fields pointer = .ok plan') : Applied P ctx plan action plan' := by
  simp only [expandGraph, bind_ok, need_ok, Json.list?_eq_some, pure_ok] at h
  obtain ⟨_, hstated, expansion, hown, declared, hdeclared, _, -, ⟨middle, members⟩, hstaged, rfl⟩ := h
  obtain ⟨hfound, hopen⟩ := ownExpansion_ok hown
  exact .expanded hname (boundedIdentifier_ok hstated) hfound hopen hdeclared hstaged

theorem sealExpansion_ok (hname : action.name = .seal)
    (h : sealExpansion P ctx plan action.fields pointer = .ok plan') : Applied P ctx plan action plan' := by
  simp only [sealExpansion, bind_ok, pure_ok] at h
  obtain ⟨_, hstated, expansion, hown, _, -, _, -, _, -, _, -, _, -, rfl⟩ := h
  exact .closed hname (boundedIdentifier_ok hstated) (ownExpansion_ok hown).1 rfl rfl

theorem applyAction_ok (h : applyAction P ctx plan item = .ok plan') : Applied P ctx plan item.1 plan' := by
  simp only [applyAction, bind_ok] at h
  obtain ⟨_, -, h⟩ := h
  have hrevised : (∃ id task edited, Revising P ctx plan item.1 id task edited plan') →
      Applied P ctx plan item.1 plan' := by
    rintro ⟨id, task, edited, hr⟩
    exact .revised hr
  cases hname : item.1.name <;> simp only [hname] at h
  case expandGraph => exact expandGraph_ok hname h
  case «seal» => exact sealExpansion_ok hname h
  case bindRole => exact hrevised (editTask_ok (fun _ _ _ => bindRole_ok hname) h)
  case setDependencies => exact hrevised (editTask_ok (fun _ _ _ => setDependencies_ok hname) h)
  case setPriority => exact hrevised (editTask_ok (fun _ _ _ => setPriority_ok hname) h)
  case requestDispatch => exact hrevised (editTask_ok (fun _ _ _ => requestDispatch_ok hname) h)

-- Every step of a decision

def statedItems (action : ParsedAction) : List Json :=
  if action.name = .expandGraph then ((field action.fields "tasks").list?).getD [] else []

/-- One step of a decision, as its working tasks take it. -/
inductive WorkStep (P : Platform) (ctx : PlanContext) (actions : List ParsedAction)
    (working : Dict String Task) : Dict String Task → Prop
  | edited {id : String} {action : ParsedAction} {task edited : Task} (listed : action ∈ actions)
      (stated : field action.fields "task_id" = .str id) (found : working.get? id = some task)
      (live : task.live = true) (edit : TaskEdit ctx working action id task edited) :
      WorkStep P ctx actions working (working.put id (revisedTask P task edited))
  | added {action : ParsedAction} {fields : Fields} {spec : TaskSpec} {expansion : Expansion}
      (listed : action ∈ actions) (stated : .object fields ∈ statedItems action)
      (accepted : AcceptedSpec ctx.grant.toAuthority ctx.tasks ctx.producers fields spec)
      (fresh : working.get? (memberId P ctx.decision_id fields) = none)
      (alone : spec.supersedes = none) :
      WorkStep P ctx actions working (working.put (memberId P ctx.decision_id fields)
        (memberDocument P ctx expansion spec (memberId P ctx.decision_id fields)))
  | replaced {action : ParsedAction} {fields : Fields} {spec : TaskSpec} {expansion : Expansion}
      {replaced : String} {previous : Task}
      (listed : action ∈ actions) (stated : .object fields ∈ statedItems action)
      (accepted : AcceptedSpec ctx.grant.toAuthority ctx.tasks ctx.producers fields spec)
      (fresh : working.get? (memberId P ctx.decision_id fields) = none)
      (replaces : spec.supersedes = some replaced) (found : working.get? replaced = some previous)
      (live : previous.live = true)
      (carried : ∀ outcome ∈ previous.required_outcomes, outcome ∈ spec.required_outcomes) :
      WorkStep P ctx actions working
        ((working.put replaced
            (retiredTask P ctx previous (memberId P ctx.decision_id fields))).put
          (memberId P ctx.decision_id fields)
          (memberDocument P ctx expansion spec (memberId P ctx.decision_id fields)))

abbrev WorkSteps (P : Platform) (ctx : PlanContext) (actions : List ParsedAction) :
    Dict String Task → Dict String Task → Prop :=
  Relation.ReflTransGen (WorkStep P ctx actions)

theorem addMember_step (hm : action ∈ actions) (hitem : item.1 ∈ statedItems action)
    (h : addMember P ctx expansion pointer staged item = .ok staged') :
    WorkStep P ctx actions staged.1.working staged'.1.working := by
  obtain ⟨fields, spec, middle, hadding, hplan, -⟩ := addMember_ok h
  rw [hplan]
  rw [hadding.stated] at hitem
  have haccepted := hadding.accepted
  have hfresh := hadding.fresh
  cases hadding.superseding with
  | fresh alone => exact .added hm hitem haccepted hfresh alone
  | replaced replaces found live carried =>
    exact .replaced hm hitem haccepted hfresh replaces found live carried

theorem Applied.steps (hm : action ∈ actions)
    (h : Applied P ctx plan action plan') : WorkSteps P ctx actions plan.working plan'.working := by
  cases h with
  | @expanded _ _ _ declared middle members name _ _ _ items staged =>
    refine foldlM_keeps
      (I := fun staged => WorkSteps P ctx actions plan.working staged.1.working) ?_ staged
      Relation.ReflTransGen.refl
    intro staged entry staged' hentry hsteps hadd
    refine hsteps.tail (addMember_step hm ?_ hadd)
    have hitem := fst_mem_of_mem_zipIdx hentry
    simpa [statedItems, name, items, Json.list?] using hitem
  | closed => exact Relation.ReflTransGen.refl
  | revised revising =>
    rw [revising.after]
    exact Relation.ReflTransGen.single
      (.edited hm revising.stated revising.found revising.live revising.edit)

theorem foldActions_steps {items : List (ParsedAction × Nat)}
    (hm : ∀ item ∈ items, item.1 ∈ actions) (h : items.foldlM (applyAction P ctx) plan = .ok plan') :
    WorkSteps P ctx actions plan.working plan'.working := by
  refine foldlM_keeps (I := fun after => WorkSteps P ctx actions plan.working after.working) ?_ h
    Relation.ReflTransGen.refl
  intro before item after hitem hsteps happly
  exact hsteps.trans ((applyAction_ok happly).steps (hm item hitem))

section
variable (h : planDecision P ctx expansions actions = .ok planned)
include h

theorem planDecision_folded : actions.zipIdx.foldlM (applyAction P ctx) { working := ctx.tasks, expansions } =
      .ok planned.toPlan := by
  simp only [planDecision, bind_ok] at h
  obtain ⟨folded, hfold, h⟩ := h
  split at h
  · cases h
  · simp only [bind_ok, pure_ok] at h
    obtain ⟨_, -, rfl⟩ := h
    exact hfold

theorem planDecision_steps : WorkSteps P ctx actions ctx.tasks planned.working :=
  foldActions_steps (fun _ hitem => fst_mem_of_mem_zipIdx hitem) (planDecision_folded h)

end

/-- Each action of a decision was applied, between the steps before it and the
steps after it. -/
theorem planDecision_applied (h : planDecision P ctx expansions actions = .ok planned) (hm : action ∈ actions) :
    ∃ before after index, WorkSteps P ctx actions ctx.tasks before.working ∧
      applyAction P ctx before (action, index) = .ok after ∧
      WorkSteps P ctx actions after.working planned.working := by
  obtain ⟨index, hget⟩ := mem_iff_getElem?.mp hm
  have hitem : (action, index) ∈ actions.zipIdx := mem_zipIdx_iff_getElem?.mpr hget
  obtain ⟨first, rest, before, after, hsplit, hfirst, happly, hrest⟩ :=
    foldlM_split hitem (planDecision_folded h)
  have hlisted : ∀ item ∈ actions.zipIdx, item.1 ∈ actions := fun _ hitem =>
    fst_mem_of_mem_zipIdx hitem
  rw [hsplit] at hlisted
  refine ⟨before, after, index, foldActions_steps ?_ hfirst, happly, foldActions_steps ?_ hrest⟩
  · intro item hbefore
    exact hlisted item (by simp [hbefore])
  · intro item hafter
    exact hlisted item (by simp [hafter])

end Karajan.Scheduling
