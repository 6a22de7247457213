import Karajan.Scheduling.Tables

/-!
# Planning one decision

A decision is compiled on copies before the first write: each action is applied
in turn to the working tasks and expansion sets, and the resulting graph is
checked for cycles and lost obligations. A plan that is refused leaves nothing
behind.
-/

namespace Karajan.Scheduling

open Dict Check
open Json (ofTexts)

structure PlanContext where
  run_id : String
  required_outcomes : List String
  grant : Grant
  decision_id : String
  tasks : Dict String Task
  definitions : Definitions
  producers : List String
  revision : Nat
  now : Rat

structure Plan where
  working : Dict String Task
  expansions : Dict String Expansion
  nodes_added : List String := []
  nodes_superseded : List String := []
  nodes_retired : List String := []
  /-- Every version the decision produced, so that all of them are archived. -/
  versions : Dict String (List Task) := .empty
  /-- Which tasks this batch replaced, and by which successor. -/
  replaced_within : Dict String String := .empty
  document_digests : Dict String String := .empty
  sealed : Dict String (List String) := .empty

structure PlannedDecision extends Plan where
  effective : Dict String Task
  outstanding_outcomes : List String
  revision : Nat

section
variable (P : Platform)

def textOf : Json → String
  | .str text => text
  | value => P.str value

def coverageInvalid (pointer detail : String) (fields : List (String × Json)) : SchedulingError :=
  refusal .obligationCoverageInvalid pointer detail fields

/-- A replacement's obligation coverage: each key is an obligation the replaced
task owed, each value an outcome the successor promises. -/
def requireCoverage (coverage : Fields) (owed carried : List String) (replaced pointer : String) : Chk Unit :=
  if owed.length = 0 then
    ensure (coverage.length == 0)
      (coverageInvalid pointer "the replaced task owed no obligation to cover"
        [("task_id", .str replaced), ("owed", .list [])])
  else do
    ensure (coverage.length != 0)
      (coverageInvalid pointer "a replacement maps every obligation it carries forward"
        [("task_id", .str replaced), ("owed", ofTexts ((sortedSet owed).take 16)),
         ("missing", ofTexts ((sortedSet owed).take 16))])
    let unmapped := notIn (coverage.map Prod.fst) owed
    ensure (unmapped.length == 0)
      (coverageInvalid pointer "every obligation the replaced task owed needs a mapping"
        [("task_id", .str replaced), ("unmapped", ofTexts (unmapped.take 16))])
    let unrelated := sorted (outside coverage owed)
    ensure (unrelated.length == 0)
      (coverageInvalid pointer
        "coverage may only speak for an obligation the replaced task really owed"
        [("task_id", .str replaced), ("unrelated", ofTexts (unrelated.take 16)),
         ("owed", ofTexts ((sortedSet owed).take 16))])
    let not_promised := sorted <| (coverage.filter fun entry =>
      match entry.2 with
      | .str target => !carried.contains target
      | _ => true).map Prod.fst
    ensure (not_promised.length == 0)
      (coverageInvalid pointer "a coverage target must be an outcome the successor really promises"
        [("task_id", .str replaced), ("not_promised", ofTexts (not_promised.take 16)),
         ("promised", ofTexts ((sortedSet carried).take 16))])

/-- Record one task version this decision produced, unless its digest is recorded. -/
def archiveVersion (document : Task) (versions : Dict String (List Task)) : Dict String (List Task) :=
  let recorded := (versions.get? document.task_id).getD []
  if recorded.all fun item => item.digest ≠ document.digest then
    versions.put document.task_id (recorded ++ [document])
  else versions

/-- Point every open set's member record at the task version that exists now. A
sealed set keeps what its seal declared. -/
def refreshMember (expansions : Dict String Expansion) (document : Task) : Dict String Expansion :=
  expansions.mapValues fun _ expansion =>
    if expansion.state = .opened ∧ expansion.members.contains document.task_id then
      resealExpansion P { expansion with
        members := expansion.members.modify document.task_id fun member =>
          { member with revision := some document.revision, digest := document.digest } }
    else expansion

def requireExpansionOpen (expansion : Expansion) (pointer : String) : Chk Unit :=
  ensure (expansion.state = .opened)
    (refusal .expansionSealed pointer "a sealed set accepts no further members"
      [("expansion_id", .str expansion.expansion_id)])

-- Expanding

def supersededTask (ctx : PlanContext) (previous : Task) (task_id : String) : Task :=
  { previous with
    state := .superseded
    superseded_by := some task_id
    history := previous.history ++
      [{ state := .superseded, at_time := some ctx.now, by_ref := ctx.decision_id,
         graph_revision := ctx.revision, extra := [("superseded_by", .str task_id)] }] }

/-- Retire the task a spec supersedes. The replacement carries every obligation
the replaced task still owed. -/
def supersede (ctx : PlanContext) (plan : Plan) (spec : TaskSpec) (task_id pointer : String) : Chk Plan :=
  match spec.supersedes with
  | none => .ok plan
  | some supersedes => do
    let previous ← need (plan.working.get? supersedes) (plain .taskNotFound)
    ensure previous.live
      (refusal .taskFrozen s!"{pointer}/supersedes" "that task is already retired"
        [("task_id", .str supersedes)])
    requireCoverage spec.obligation_coverage previous.required_outcomes spec.required_outcomes
      supersedes s!"{pointer}/obligation_coverage"
    let uncovered := notIn spec.required_outcomes previous.required_outcomes
    ensure (uncovered.length == 0)
      (refusal .obligationUncovered s!"{pointer}/required_outcomes"
        "a replacement carries every obligation it replaces"
        [("task_id", .str supersedes), ("uncovered", ofTexts (uncovered.take 16))])
    let retired := supersededTask ctx previous task_id
    return { plan with
      replaced_within := plan.replaced_within.put supersedes task_id
      -- archived under the digest the task had before it was retired
      versions := archiveVersion retired plan.versions
      working := plan.working.put supersedes (resealTask P retired)
      nodes_superseded := plan.nodes_superseded ++ [supersedes] }

def memberDocument (ctx : PlanContext) (expansion : Expansion) (spec : TaskSpec) (task_id : String) : Task :=
  let document := taskDocument P spec task_id ctx.run_id ctx.revision "decision"
    (some ctx.decision_id) (some spec.role_ref) expansion.parent_task_id spec.supersedes
  resealTask P { document with
    grant_id := some ctx.grant.grant_id
    history := document.history.map fun entry => { entry with at_time := some ctx.now } }

def addMember (ctx : PlanContext) (expansion : Expansion) (tasksPointer : String)
    (staged : Plan × Dict String Member) (item : Json × Nat) : Chk (Plan × Dict String Member) := do
  let (plan, members) := staged
  let pointer := s!"{tasksPointer}/{item.2}"
  let spec ← validateTaskSpec P item.1 ctx.grant.toAuthority pointer ctx.definitions ctx.tasks
    ctx.producers
  ensure (match spec.item_key with | .null => false | _ => true)
    (refusal .taskInvalid s!"{pointer}/item_key" "a member states the item key it is derived from")
  let item_key := textOf P spec.item_key
  let task_id ← taskIdentity ctx.decision_id item_key
  ensure (!plan.working.contains task_id)
    (refusal .taskAlreadyExists s!"{pointer}/item_key" "that item key already exists in this run"
      [("task_id", .str task_id)])
  ensure (match expansion.member_policy with
      | none => true
      | some policy => members.entries.length < policy)
    (refusal .expansionMemberPolicyExceeded tasksPointer
      "the workflow author declared a smaller member set"
      [("member_policy", Json.ofNat? expansion.member_policy)])
  let plan ← supersede P ctx plan spec task_id pointer
  let document := memberDocument P ctx expansion spec task_id
  return (
    { plan with
      working := plan.working.put task_id document
      document_digests := plan.document_digests.put task_id document.digest
      versions := archiveVersion document plan.versions
      nodes_added := plan.nodes_added ++ [task_id] },
    members.put task_id {
      task_id, item_key
      revision := some 1
      digest := document.digest
      required_outcomes := spec.required_outcomes
      required := spec.required
      replaced := none })

/-- An open set that named a task this batch replaced follows the replacement. -/
def followReplaced (plan : Plan) (members : Dict String Member) : Dict String Member :=
  plan.replaced_within.entries.foldl
    (fun members (replaced, successor) =>
      match members.get? replaced with
      | none => members
      | some previous =>
        (members.erase replaced).put successor { previous with
          task_id := successor
          revision := some 1
          digest := (plan.document_digests.get? successor).getD ""
          replaced := some replaced })
    members

def pinMembers (working : Dict String Task) (members : Dict String Member) : Dict String Member :=
  members.mapValues fun _ member =>
    match member.revision, working.get? member.task_id with
    | none, some task => { member with revision := some task.revision, digest := task.digest }
    | _, _ => member

def ownExpansion (ctx : PlanContext) (plan : Plan) (expansion_id pointer detail : String)
    (notFound : SchedulingError) (fields : Expansion → List (String × Json)) : Chk Expansion := do
  let expansion ← need (plan.expansions.get? expansion_id) notFound
  requireExpansionOpen expansion pointer
  ensure (expansion.grant_id = ctx.grant.grant_id)
    (refusal .expansionNotPermitted s!"{pointer}/expansion_id" detail (fields expansion))
  return expansion

def expandGraph (ctx : PlanContext) (plan : Plan) (fields : Fields) (pointer : String) : Chk Plan := do
  let expansion_id ←
    boundedIdentifier (field fields "expansion_id") .actionInvalid s!"{pointer}/expansion_id"
  let expansion ← ownExpansion ctx plan expansion_id pointer
    "the granted authority does not own that expansion"
    (refusal .expansionNotFound s!"{pointer}/expansion_id" "no such expansion set in this run")
    fun _ => []
  let noMembers := refusal .actionInvalid s!"{pointer}/tasks"
    "an expansion batch carries at least one member"
  let declared ← need (field fields "tasks").list? noMembers
  ensure (declared.length != 0) noMembers
  let (plan, members) ← declared.zipIdx.foldlM (addMember P ctx expansion s!"{pointer}/tasks")
    (plan, expansion.members)
  let members := pinMembers plan.working (followReplaced plan members)
  let expansion := resealExpansion P { expansion with members, batches := expansion.batches + 1 }
  return { plan with expansions := plan.expansions.put expansion_id expansion }

-- Sealing

def actionIdentifiers (fields : Fields) (name pointer : String) : Chk (List String) := do
  let items ← storeTextList (field fields name) .actionInvalid s!"{pointer}/{name}"
  let items ← each (fun item => boundedIdentifier (.str item) .actionInvalid s!"{pointer}/{name}") items
  return sorted items

def currentMember (working : Dict String Task) (member : Member) : Bool :=
  match working.get? member.task_id with
  | some task => task.digest = member.digest
  | none => false

def sealExpansion (ctx : PlanContext) (plan : Plan) (fields : Fields) (pointer : String) : Chk Plan := do
  let expansion_id ←
    boundedIdentifier (field fields "expansion_id") .actionInvalid s!"{pointer}/expansion_id"
  let expansion ← ownExpansion ctx plan expansion_id pointer
    "only the grant that opened this set may seal it" (plain .expansionNotFound)
    fun expansion =>
      [("expansion_id", .str expansion_id), ("owning_grant_id", .str expansion.grant_id)]
  let declared ← actionIdentifiers fields "members" pointer
  let known := sorted expansion.members.keys
  ensure (declared = known)
    (refusal .expansionMembersMismatch s!"{pointer}/members"
      "a seal names exactly the members actually present"
      [("declared", ofTexts (declared.take 32)), ("actual", ofTexts (known.take 32))])
  let obligations ← actionIdentifiers fields "obligations" pointer
  let covered := expansion.members.values.flatMap Member.required_outcomes
  let stale := (expansion.members.values.filter fun m => !currentMember plan.working m).map
    Member.task_id
  ensure (stale.length == 0)
    (refusal .expansionMemberStale s!"{pointer}/members"
      "a member names a version that is no longer current"
      [("members", ofTexts ((sorted stale).take 32))])
  let missing := notIn covered expansion.required_outcomes
  ensure (missing.length == 0 && obligations.all expansion.required_outcomes.contains &&
      expansion.required_outcomes.all obligations.contains)
    (refusal .expansionObligationsUncovered s!"{pointer}/obligations"
      "every obligation of the set must be carried by a member"
      [("uncovered", ofTexts (missing.take 32)),
       ("declared", ofTexts (obligations.take 32))])
  let expansion := resealExpansion P { expansion with
    state := .sealed
    sealed_at := some ctx.now
    sealed_by_decision := some ctx.decision_id
    sealed_revision := some ctx.revision
    coverage := .ofList (expansion.members.values.map fun m => (m.task_id, m.required_outcomes)) }
  return { plan with
    expansions := plan.expansions.put expansion_id expansion
    sealed := plan.sealed.put expansion_id known }

-- Editing one task

def claimedFrozen (task_id pointer detail : String) : SchedulingError :=
  refusal .taskFrozen pointer detail [("task_id", .str task_id)]

def bindRole (ctx : PlanContext) (existing : Task) (fields : Fields) (task_id pointer : String) : Chk Task := do
  let role_alias ←
    boundedIdentifier (field fields "role_alias") .actionInvalid s!"{pointer}/role_alias"
  let role_ref ← need (ctx.grant.role_refs.get? role_alias)
    { code := .grantRoleNotPermitted, fields := [("role_alias", .str role_alias)] }
  ensure (existing.state ≠ .claimed)
    (claimedFrozen task_id s!"{pointer}/role_alias" "a claimed task's binding is frozen")
  return { existing with role_alias := some role_alias, role_ref := some role_ref }

def setDependencies (plan : Plan) (existing : Task) (fields : Fields) (task_id pointer : String) : Chk Task := do
  let dependencies ← actionIdentifiers fields "depends_on" pointer
  let unknown := sorted (dependencies.filter fun name => !plan.working.contains name)
  ensure (unknown.length == 0)
    (refusal .taskNotFound s!"{pointer}/depends_on" "a dependency names a task in this run"
      [("depends_on", ofTexts (unknown.take 16))])
  ensure (!dependencies.contains task_id) (plain .taskSelfDependency)
  ensure (existing.state ≠ .claimed)
    (claimedFrozen task_id s!"{pointer}/depends_on" "a claimed task's dependencies are frozen")
  -- declared edges are replaced, the ones an input binding implies are retained
  return { existing with
    declared_depends_on := dependencies
    depends_on := sortedSet (dependencies ++ existing.inferred_depends_on) }

def setPriority (existing : Task) (fields : Fields) (pointer : String) : Chk Task := do
  let priority ←
    nonNegativeCount (field fields "priority") .actionInvalid s!"{pointer}/priority" 1000
  return { existing with priority }

def requestDispatch (existing : Task) (fields : Fields) (pointer : String) : Chk Task := do
  let dispatch ← need ((field fields "dispatch").str?.bind Dispatch.ofText?)
    (refusal .actionInvalid s!"{pointer}/dispatch" "'dispatched' or 'held' is required")
  return { existing with dispatch }

def editTask (plan : Plan) (edit : Task → String → Chk Task) (fields : Fields) (pointer : String) : Chk Plan := do
  let task_id ← boundedIdentifier (field fields "task_id") .taskNotFound s!"{pointer}/task_id"
  let existing ← need (plan.working.get? task_id)
    (refusal .taskNotFound s!"{pointer}/task_id" "no such task")
  ensure existing.live
    (refusal .taskFrozen s!"{pointer}/task_id"
      "a retired task is not edited; a new task carries the work"
      [("task_id", .str task_id), ("state", .str existing.state.text)])
  let edited ← edit existing task_id
  let edited := resealTask P { edited with revision := existing.revision + 1 }
  return { plan with
    working := plan.working.put task_id edited
    versions := archiveVersion edited plan.versions
    expansions := refreshMember P plan.expansions edited }

-- The whole decision

def applyAction (ctx : PlanContext) (plan : Plan) (action : ParsedAction × Nat) : Chk Plan := do
  let pointer := s!"scheduling#/actions/{action.2}"
  let fields := action.1.fields
  ensure (ctx.grant.allowed_actions.contains action.1.name)
    (refusal .grantActionNotPermitted pointer "the grant does not authorise that action"
      [("action", .str action.1.name.text), ("grant_id", .str ctx.grant.grant_id)])
  match action.1.name with
  | .expandGraph => expandGraph P ctx plan fields pointer
  | .seal => sealExpansion P ctx plan fields pointer
  | .bindRole => editTask P plan (fun task id => bindRole ctx task fields id pointer) fields pointer
  | .setDependencies =>
    editTask P plan (fun task id => setDependencies plan task fields id pointer) fields pointer
  | .setPriority => editTask P plan (fun task _ => setPriority task fields pointer) fields pointer
  | .requestDispatch =>
    editTask P plan (fun task _ => requestDispatch task fields pointer) fields pointer

def planDecision (ctx : PlanContext) (expansions : Dict String Expansion)
    (actions : List ParsedAction) : Chk PlannedDecision := do
  let plan ← actions.zipIdx.foldlM (applyAction P ctx) { working := ctx.tasks, expansions }
  let effective := plan.working.filter fun _ task => task.live
  match dependencyCycle effective with
  | some cycle =>
    .error (refusal .dependencyCycle "scheduling#/actions"
      "the resulting graph would contain a dependency cycle"
      [("cycle", ofTexts (cycle.take 16))])
  | none => do
    let missing := uncoveredObligations effective plan.working
    ensure (missing.length == 0)
      (refusal .obligationUncovered "scheduling#/actions"
        "no live task still carries a promised outcome"
        [("uncovered", ofTexts (missing.take 32))])
    let delivered := effective.values.flatMap Task.obligations
    return { plan with
      effective
      outstanding_outcomes := sorted (ctx.required_outcomes.filter fun o => !delivered.contains o)
      revision := ctx.revision }

end

-- What a plan does to a task

variable {id : String}

theorem Task.live_iff {task : Task} : task.live = true ↔ task.state ≠ .superseded ∧ task.state ≠ .cancelled := by
  simp [Task.live, retiredStates]

@[simp] theorem Task.live_superseded {task : Task} (h : task.state = .superseded) :
    task.live = false := by simp [Task.live, retiredStates, h]

structure Planned (old new : Task) : Prop where
  task_id : new.task_id = old.task_id
  claim_id : new.claim_id = old.claim_id
  claimed_by : new.claimed_by = old.claimed_by
  reconciliation_outcome : new.reconciliation_outcome = old.reconciliation_outcome
  state : new.state = old.state ∨ old.live = true ∧ new.state = .superseded
  retired : old.live = false → new = old

structure Unclaimed (task_id : String) (task : Task) : Prop where
  task_id : task.task_id = task_id
  state : task.state = .queued
  claim_id : task.claim_id = none
  reconciliation_outcome : task.reconciliation_outcome = none

theorem Planned.refl (task : Task) : Planned task task :=
  ⟨rfl, rfl, rfl, rfl, .inl rfl, fun _ => rfl⟩

theorem Planned.trans (h : Planned a b) (h' : Planned b c) : Planned a c where
  task_id := h'.task_id.trans h.task_id
  claim_id := h'.claim_id.trans h.claim_id
  claimed_by := h'.claimed_by.trans h.claimed_by
  reconciliation_outcome := h'.reconciliation_outcome.trans h.reconciliation_outcome
  state := by
    rcases h.state with hb | ⟨ha, hb⟩
    · rcases h'.state with hc | ⟨hlive, hc⟩
      · exact .inl (hc.trans hb)
      · refine .inr ⟨?_, hc⟩
        rw [Task.live_iff] at hlive ⊢
        rwa [← hb]
    · rw [h'.retired (Task.live_superseded hb)]
      exact .inr ⟨ha, hb⟩
  retired ha := by
    have hb := h.retired ha
    subst hb
    exact h'.retired ha

structure PlanInv (ctx : PlanContext) (plan : Plan) : Prop where
  kept : ∀ id old, ctx.tasks.get? id = some old →
    ∃ new, plan.working.get? id = some new ∧ Planned old new
  added : ∀ id new, plan.working.get? id = some new → ctx.tasks.get? id = none → Unclaimed id new

theorem PlanInv.of_working (h : PlanInv ctx plan) (hw : plan'.working = plan.working) : PlanInv ctx plan' := by
  constructor
  · rw [hw]; exact h.kept
  · rw [hw]; exact h.added

-- Writing one task

theorem PlanInv.replace (h : PlanInv ctx plan) (ht : plan.working.get? id = some task)
    (hp : Planned task new) (hu : ctx.tasks.get? id = none → Unclaimed id new)
    (hw : plan'.working = plan.working.put id new) : PlanInv ctx plan' := by
  constructor
  · intro id' old hold
    rw [hw]
    obtain ⟨mid, hmid, hpl⟩ := h.kept id' old hold
    by_cases hid : id = id'
    · subst hid
      rw [ht] at hmid; cases hmid
      exact ⟨new, by simp, hpl.trans hp⟩
    · exact ⟨mid, by rw [get?_put_of_ne hid, hmid], hpl⟩
  · intro id' new' hnew hnone
    rw [hw, get?_put] at hnew
    split at hnew
    case isTrue hid => subst hid; cases hnew; exact hu hnone
    · exact h.added id' new' hnew hnone

theorem PlanInv.add (h : PlanInv ctx plan) (hnew : plan.working.get? id = none)
    (hu : Unclaimed id new) (hw : plan'.working = plan.working.put id new) : PlanInv ctx plan' := by
  constructor
  · intro id' old hold
    obtain ⟨mid, hmid, hpl⟩ := h.kept id' old hold
    exact ⟨mid, by rw [hw, get?_put_new hnew hmid], hpl⟩
  · intro id' new' hnew' hnone
    rw [hw, get?_put] at hnew'
    split at hnew'
    case isTrue hid => subst hid; cases hnew'; exact hu
    · exact h.added id' new' hnew' hnone

-- Editing

structure Edited (old new : Task) : Prop where
  task_id : new.task_id = old.task_id
  claim_id : new.claim_id = old.claim_id
  claimed_by : new.claimed_by = old.claimed_by
  reconciliation_outcome : new.reconciliation_outcome = old.reconciliation_outcome
  state : new.state = old.state

theorem bindRole_edited (h : bindRole ctx task fields id pointer = .ok new) : Edited task new := by
  simp only [bindRole, bind_ok, pure_ok] at h
  obtain ⟨_, -, _, -, _, -, rfl⟩ := h
  exact ⟨rfl, rfl, rfl, rfl, rfl⟩

theorem setDependencies_edited (h : setDependencies plan task fields id pointer = .ok new) : Edited task new := by
  simp only [setDependencies, bind_ok, pure_ok] at h
  obtain ⟨_, -, _, -, _, -, _, -, rfl⟩ := h
  exact ⟨rfl, rfl, rfl, rfl, rfl⟩

theorem setPriority_edited (h : setPriority task fields pointer = .ok new) : Edited task new := by
  simp only [setPriority, bind_ok, pure_ok] at h
  obtain ⟨_, -, rfl⟩ := h
  exact ⟨rfl, rfl, rfl, rfl, rfl⟩

theorem requestDispatch_edited (h : requestDispatch task fields pointer = .ok new) : Edited task new := by
  simp only [requestDispatch, bind_ok, pure_ok] at h
  obtain ⟨_, -, rfl⟩ := h
  exact ⟨rfl, rfl, rfl, rfl, rfl⟩

theorem editTask_inv (hedit : ∀ task id new, edit task id = .ok new → Edited task new)
    (h : editTask P plan edit fields pointer = .ok plan') (hi : PlanInv ctx plan) : PlanInv ctx plan' := by
  simp only [editTask, bind_ok, need_ok, ensure_ok, pure_ok] at h
  obtain ⟨id, -, task, ht, _, hlive, new, hnew, rfl⟩ := h
  have he := hedit task id new hnew
  refine hi.replace ht ?_ ?_ rfl
  · exact ⟨he.task_id, he.claim_id, he.claimed_by, he.reconciliation_outcome, .inl he.state,
      fun hr => by rw [hr] at hlive; cases hlive⟩
  · intro hnone
    have hu := hi.added id task ht hnone
    exact ⟨he.task_id.trans hu.task_id, he.state.trans hu.state, he.claim_id.trans hu.claim_id,
      he.reconciliation_outcome.trans hu.reconciliation_outcome⟩

-- Expanding and sealing

theorem validateTaskSpec_supersedes
    (h : validateTaskSpec P value grant pointer definitions known producers = .ok spec)
    (hs : spec.supersedes = some id) : ∃ task, known.get? id = some task := by
  simp only [validateTaskSpec, bind_ok, pure_ok] at h
  obtain ⟨_, -, _, -, _, -, _, -, _, -, _, -, _, -, _, -, _, -, _, -, _, -, _, -, _, -, _, -, _, -,
    supersedes, hsup, _, -, rfl⟩ := h
  subst hs
  rcases optional_ok.mp hsup with ⟨-, hnone⟩ | ⟨-, id', hid, hsome⟩
  · cases hnone
  · cases hsome
    simp only [requireSuperseded, bind_ok, need_ok, pure_ok] at hid
    obtain ⟨_, -, task, htask, _, -, rfl⟩ := hid
    exact ⟨task, htask⟩

theorem supersede_inv (h : supersede P ctx plan spec task_id pointer = .ok plan')
    (hknown : ∀ id, spec.supersedes = some id → ∃ task, ctx.tasks.get? id = some task)
    (hi : PlanInv ctx plan) : PlanInv ctx plan' := by
  unfold supersede at h
  split at h
  · cases h; exact hi
  case h_2 id hid =>
    simp only [bind_ok, need_ok, ensure_ok, pure_ok] at h
    obtain ⟨previous, hprev, _, hlive, _, -, _, -, rfl⟩ := h
    refine hi.replace hprev ?_ ?_ rfl
    · exact ⟨rfl, rfl, rfl, rfl, .inr ⟨hlive, rfl⟩, fun hr => by rw [hr] at hlive; cases hlive⟩
    · intro hnone
      obtain ⟨task, ht⟩ := hknown id hid
      rw [hnone] at ht; cases ht

theorem memberDocument_unclaimed (P : Platform) (ctx : PlanContext) (expansion : Expansion)
    (spec : TaskSpec) (task_id : String) :
    Unclaimed task_id (memberDocument P ctx expansion spec task_id) := ⟨rfl, rfl, rfl, rfl⟩

theorem supersede_none (h : supersede P ctx plan spec task_id pointer = .ok plan')
    (hn : plan.working.get? id = none) : plan'.working.get? id = none := by
  unfold supersede at h
  split at h
  · cases h; exact hn
  case h_2 id' hid =>
    simp only [bind_ok, need_ok, pure_ok] at h
    obtain ⟨previous, hprev, _, -, _, -, _, -, rfl⟩ := h
    have hne : id' ≠ id := by rintro rfl; rw [hn] at hprev; cases hprev
    simpa [get?_put_of_ne hne] using hn

theorem addMember_inv (h : addMember P ctx expansion pointer staged item = .ok staged')
    (hi : PlanInv ctx staged.1) : PlanInv ctx staged'.1 := by
  simp only [addMember, bind_ok, ensure_ok, pure_ok] at h
  obtain ⟨spec, hspec, _, -, task_id, -, _, hnew, _, -, plan', hsup, rfl⟩ := h
  have hnone : staged.1.working.get? task_id = none := by
    simpa [contains] using hnew
  have hi' := supersede_inv hsup (fun id hid => validateTaskSpec_supersedes hspec hid) hi
  exact hi'.add (supersede_none hsup hnone) (memberDocument_unclaimed P ctx expansion spec task_id)
    rfl

theorem expandGraph_inv (h : expandGraph P ctx plan fields pointer = .ok plan')
    (hi : PlanInv ctx plan) : PlanInv ctx plan' := by
  simp only [expandGraph, bind_ok, pure_ok] at h
  obtain ⟨_, -, expansion, -, declared, -, _, -, staged, hfold, rfl⟩ := h
  have hs : PlanInv ctx staged.1 :=
    foldlM_keeps (I := fun staged => PlanInv ctx staged.1)
      (fun _ _ _ _ hi h => addMember_inv h hi) hfold hi
  exact hs.of_working rfl

theorem sealExpansion_inv (h : sealExpansion P ctx plan fields pointer = .ok plan')
    (hi : PlanInv ctx plan) : PlanInv ctx plan' := by
  simp only [sealExpansion, bind_ok, pure_ok] at h
  obtain ⟨_, -, _, -, _, -, _, -, _, -, _, -, _, -, rfl⟩ := h
  exact hi.of_working rfl

-- The whole decision

theorem applyAction_inv (h : applyAction P ctx plan action = .ok plan') (hi : PlanInv ctx plan) :
    PlanInv ctx plan' := by
  simp only [applyAction, bind_ok] at h
  obtain ⟨_, -, h⟩ := h
  cases hname : action.1.name <;> rw [hname] at h
  case expandGraph => exact expandGraph_inv h hi
  case bindRole => exact editTask_inv (fun _ _ _ => bindRole_edited) h hi
  case setDependencies => exact editTask_inv (fun _ _ _ => setDependencies_edited) h hi
  case setPriority => exact editTask_inv (fun _ _ _ => setPriority_edited) h hi
  case requestDispatch => exact editTask_inv (fun _ _ _ => requestDispatch_edited) h hi
  case «seal» => exact sealExpansion_inv h hi

/-- What an accepted plan is: it leaves of each task what planning may leave of
it, and its effective tasks are the live ones and have no cycle. -/
structure PlanAccepted (ctx : PlanContext) (plan : PlannedDecision) : Prop where
  inv : PlanInv ctx plan.toPlan
  effective : plan.effective = plan.working.filter fun _ task => task.live
  acyclic : dependencyCycle plan.effective = none
  covered : uncoveredObligations plan.effective plan.working = []
  revision : plan.revision = ctx.revision

theorem planDecision_ok {plan : PlannedDecision} (h : planDecision P ctx expansions actions = .ok plan) :
    PlanAccepted ctx plan := by
  simp only [planDecision, bind_ok] at h
  obtain ⟨folded, hfold, h⟩ := h
  have hi : PlanInv ctx folded :=
    foldlM_keeps (I := PlanInv ctx) (fun _ _ _ _ hi h => applyAction_inv h hi) hfold
      ⟨fun id old hold => ⟨old, hold, .refl old⟩, fun id new hnew hnone => by
        rw [hnone] at hnew; cases hnew⟩
  split at h
  · cases h
  case h_2 hcycle =>
    simp only [bind_ok, ensure_ok, pure_ok] at h
    obtain ⟨_, hcovered, rfl⟩ := h
    exact ⟨hi, rfl, hcycle, by simpa using hcovered, rfl⟩

end Karajan.Scheduling
