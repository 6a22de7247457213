import Karajan.Scheduling.TaskTable

/-!
# Consumers wait for their producers

A task that reads the output of a task the run has when it is created gets an
edge to it, and keeps that edge. An output that is read before its task exists
gets none: the edge is there only as far as the decisions state it, and keep
stating it.
-/

namespace Karajan.Scheduling

open List Dict Check
open Sample (platform claimPayload worker system)

section
variable {P : Platform} {store later : Store} {db db' : Db} {key : RunKey} {id producer : String}

-- What a task consumes

def consumed (inputs : Fields) : List String :=
  ((inputs.map Prod.snd).flatMap referencesOf).filterMap producerOf

theorem mem_inferredDependencies : producer ∈ inferredDependencies inputs producers ↔
      producer ∈ consumed inputs ∧ producer ∈ producers := by
  simp only [inferredDependencies, consumed, mem_sortedSet, mem_filterMap,
    Option.filter_eq_some_iff, contains_iff_mem]
  constructor
  · rintro ⟨reference, hm, hproducer, hknown⟩
    exact ⟨⟨reference, hm, hproducer⟩, hknown⟩
  · rintro ⟨⟨reference, hm, hproducer⟩, hknown⟩
    exact ⟨reference, hm, hproducer, hknown⟩

def statedInputs (fields : Fields) : Fields := ((fieldD fields "inputs" (.object [])).object?).getD []

def createdIds (P : Platform) (decision_id : String) (actions : List ParsedAction) : List String :=
  (actions.flatMap statedItems).filterMap fun item => item.object?.map (memberId P decision_id)

theorem mem_createdIds (hm : action ∈ actions) (hstated : .object fields ∈ statedItems action) :
    memberId P decision_id fields ∈ createdIds P decision_id actions :=
  List.mem_filterMap.mpr ⟨.object fields, List.mem_flatMap.mpr ⟨action, hm, hstated⟩, rfl⟩

-- The edges a decision states

def rewires (id : String) (action : ParsedAction) : Bool :=
  action.name = .setDependencies && (field action.fields "task_id").str? = some id

def statesEdge (action : ParsedAction) (producer : String) : Bool :=
  (statedTexts (field action.fields "depends_on")).contains producer

/-- The edge of one task to one producer is there after some actions: its
bindings imply it, or it was there before or is added by an action, and no
action drops it. An edge of a task that was claimed is not added after the fact. -/
def edgeStated (actions : List ParsedAction) (id producer : String) (inferred : List String)
    (present unclaimed : Bool) : Bool :=
  inferred.contains producer ||
    ((present || (unclaimed && actions.any (rewires id))) &&
      actions.all fun action => !rewires id action || statesEdge action producer)

/-- Whether an action can rewire the task; a decision that tries to rewire
another one is refused. -/
def Task.rewirable (task : Task) : Bool := task.live && task.state ≠ .claimed

/-- The steps and tasks of a run, whose outputs a specification can refer to. -/
def knownProducers (db : Db) (key : RunKey) : List String :=
  ((db.runs key).workflow_run.elim [] fun run => run.definitions.steps) ++ (db.tasks key).keys

/-- The decision gives every task, a stored one or one it creates, its edges to
the tasks it creates, and takes none of its edges to the tasks it reads. -/
def consumersWait (P : Platform) (db : Db) (submission : Submission) : Bool :=
  let actions := submission.parsed.actions
  let decision_id := submission.parsed.decision_id
  let tasks := db.tasks submission.key
  let known producer := tasks.contains producer || (createdIds P decision_id actions).contains producer
  (tasks.entries.all fun entry =>
    let task := entry.2.record
    (consumed task.inputs).all fun producer => !known producer ||
      edgeStated (if task.rewirable then actions else []) entry.1 producer task.inferred_depends_on
        (tasks.contains producer || task.depends_on.contains producer) task.claim_id.isNone) &&
  (actions.flatMap statedItems).all fun item => item.object?.all fun fields =>
    (consumed (statedInputs fields)).all fun producer => !known producer ||
      edgeStated actions (memberId P decision_id fields) producer
        (inferredDependencies (statedInputs fields) (knownProducers db submission.key))
        ((statedTexts (fieldD fields "depends_on" (.list []))).contains producer) true

/-- No decision leaves a task without an edge to a task whose output it consumes. -/
def ConsumersWait (P : Platform) (store : Store) (request : Request) : Prop :=
  decisionMeets P (consumersWait P) store request = true

instance : Decidable (ConsumersWait P store request) :=
  inferInstanceAs (Decidable (decisionMeets P (consumersWait P) store request = true))

-- One edge through the steps of a decision

section
variable {ctx : PlanContext} {working working' : Dict String Task}

def Implied (task? : String → Option Task) : Prop :=
  ∀ id task, task? id = some task → ∀ name ∈ task.inferred_depends_on, name ∈ task.depends_on

theorem Implied.put (h : Implied working.get?)
    (hnew : ∀ name ∈ task.inferred_depends_on, name ∈ task.depends_on) : Implied (working.put id task).get? := by
  intro id' task' hget
  rcases of_put hget with ⟨-, rfl⟩ | ⟨-, hget⟩
  · exact hnew
  · exact h id' task' hget

theorem TaskEdit.implied (h : TaskEdit ctx working action id task edited)
    (hi : ∀ name ∈ task.inferred_depends_on, name ∈ task.depends_on) :
    ∀ name ∈ (revisedTask P task edited).inferred_depends_on, name ∈ (revisedTask P task edited).depends_on := by
  cases h with
  | depended => exact fun name hm => mem_sortedSet.mpr (mem_append_right _ hm)
  | bound | prioritized | dispatched => exact hi

theorem memberDocument_implied (h : AcceptedSpec ctx.grant.toAuthority ctx.tasks ctx.producers fields spec) :
    ∀ name ∈ (memberDocument P ctx expansion spec id).inferred_depends_on,
      name ∈ (memberDocument P ctx expansion spec id).depends_on := by
  intro name hm
  change name ∈ spec.depends_on
  rw [h.depends]
  exact mem_sortedSet.mpr (mem_append_right _ hm)

theorem WorkStep.implied (h : WorkStep P ctx actions working working') (hi : Implied working.get?) :
    Implied working'.get? := by
  cases h with
  | edited _ _ found _ edit => exact hi.put (edit.implied (hi _ _ found))
  | added _ _ accepted => exact hi.put (memberDocument_implied accepted)
  | @replaced _ _ _ _ _ previous _ _ accepted _ _ found =>
    refine Implied.put (hi.put ?_) (memberDocument_implied accepted)
    exact hi _ previous found

theorem WorkSteps.implied (h : WorkSteps P ctx actions working working') (hi : Implied working.get?) :
    Implied working'.get? := by
  induction h with
  | refl => exact hi
  | tail _ hstep ih => exact hstep.implied ih

def EdgeKept (ctx : PlanContext) (actions : List ParsedAction) (id producer : String) : Prop :=
  ∀ action ∈ actions, rewires id action = true →
    (∀ old, ctx.tasks.get? id = some old → old.rewirable = true) →
    producer ∈ statedTexts (field action.fields "depends_on")

theorem Redecided.rewirable (h : Redecided old task) (live : task.live = true)
    (unclaimed : task.state ≠ .claimed) : old.rewirable = true := by
  have hstate := h.state live
  rw [hstate] at unclaimed
  rw [Task.live_congr hstate] at live
  simp [Task.rewirable, live, unclaimed]

theorem TaskEdit.keeps_edge (hkept : EdgeKept ctx actions id producer)
    (hold : ∀ old, ctx.tasks.get? id = some old → Redecided old task) (listed : action ∈ actions)
    (stated : field action.fields "task_id" = .str id) (live : task.live = true)
    (h : TaskEdit ctx working action id task edited) (hm : producer ∈ task.depends_on) :
    producer ∈ (revisedTask P task edited).depends_on := by
  cases h with
  | bound | prioritized | dispatched => exact hm
  | depended name declared _ unclaimed =>
    have hstated := hkept action listed (by simp [rewires, name, stated, Json.str?])
      fun old hget => (hold old hget).rewirable live unclaimed
    refine mem_sortedSet.mpr (mem_append_left _ ?_)
    rw [declared]
    exact mem_sorted.mpr hstated

theorem WorkSteps.keeps_edge (hbefore : WorkSteps P ctx actions ctx.tasks working)
    (hkept : EdgeKept ctx actions id producer) (h : WorkSteps P ctx actions working working')
    (hget : working.get? id = some task) (hm : producer ∈ task.depends_on) :
    ∃ task', working'.get? id = some task' ∧ producer ∈ task'.depends_on := by
  induction h with
  | refl => exact ⟨task, hget, hm⟩
  | @tail middle _ hsteps hstep ih =>
    obtain ⟨before, hbefore', hm'⟩ := ih
    have hold : ∀ old, ctx.tasks.get? id = some old → Redecided old before := by
      intro old hold
      obtain ⟨task', htask', hr⟩ := WorkSteps.redecided (hbefore.trans hsteps) hold
      rw [hbefore'] at htask'; cases htask'
      exact hr
    have hne : ∀ name, middle.get? name = none → name ≠ id := by
      rintro name hnone rfl
      rw [hbefore'] at hnone; cases hnone
    cases hstep with
    | @edited id' _ _ _ listed stated found live edit =>
      by_cases hid : id' = id
      · subst hid
        rw [hbefore'] at found; cases found
        exact ⟨_, get?_put_self, edit.keeps_edge hkept hold listed stated live hm'⟩
      · exact ⟨before, by rw [get?_put_of_ne hid, hbefore'], hm'⟩
    | added _ _ _ fresh =>
      exact ⟨before, by rw [get?_put_of_ne (hne _ fresh), hbefore'], hm'⟩
    | @replaced _ _ _ _ replaced _ _ _ _ fresh _ found =>
      rw [get?_put_of_ne (hne _ fresh)]
      by_cases hid : replaced = id
      · subst hid
        rw [hbefore'] at found; cases found
        exact ⟨_, get?_put_self, hm'⟩
      · exact ⟨before, by rw [get?_put_of_ne hid, hbefore'], hm'⟩

/-- A task a decision created, and the specification it was created from. -/
structure CreatedFrom (P : Platform) (ctx : PlanContext) (actions : List ParsedAction) (id : String)
    (task : Task) (action : ParsedAction) (fields : Fields) (spec : TaskSpec) : Prop where
  listed : action ∈ actions
  stated : .object fields ∈ statedItems action
  named : id = memberId P ctx.decision_id fields
  accepted : AcceptedSpec ctx.grant.toAuthority ctx.tasks ctx.producers fields spec
  inputs : task.inputs = spec.inputs
  inferred : task.inferred_depends_on = spec.inferred_depends_on
  edges : ∀ producer ∈ spec.depends_on, EdgeKept ctx actions id producer → producer ∈ task.depends_on

theorem WorkSteps.created (h : WorkSteps P ctx actions ctx.tasks working)
    (hget : working.get? id = some task) (hnew : ctx.tasks.get? id = none) :
    ∃ action fields spec, CreatedFrom P ctx actions id task action fields spec := by
  induction h generalizing task with
  | refl => rw [hnew] at hget; cases hget
  | @tail middle _ hsteps hstep ih =>
    have hold : ∀ task old, ctx.tasks.get? id = some old → Redecided old task := by
      intro task old hold
      rw [hnew] at hold; cases hold
    cases hstep with
    | @edited id' _ before _ listed stated found live edit =>
      rcases of_put hget with ⟨rfl, rfl⟩ | ⟨-, hget⟩
      · obtain ⟨action, fields, spec, hc⟩ := ih found
        refine ⟨action, fields, spec, { hc with
          inputs := edit.redecided.inputs.trans hc.inputs
          inferred := edit.redecided.inferred_depends_on.trans hc.inferred
          edges := fun name hm hkept => ?_ }⟩
        exact edit.keeps_edge hkept (hold before) listed stated live (hc.edges name hm hkept)
      · exact ih hget
    | @added action fields spec _ listed stated accepted =>
      rcases of_put hget with ⟨hid, rfl⟩ | ⟨-, hget⟩
      · exact ⟨action, fields, spec, listed, stated, hid.symm, accepted, rfl, rfl, fun _ hm _ => hm⟩
      · exact ih hget
    | @replaced action fields spec _ _ previous listed stated accepted _ _ found =>
      rw [get?_put] at hget
      split at hget
      case isTrue hid =>
        cases hget
        exact ⟨action, fields, spec, listed, stated, hid.symm, accepted, rfl, rfl, fun _ hm _ => hm⟩
      case isFalse =>
        rcases of_put hget with ⟨rfl, rfl⟩ | ⟨-, hget⟩
        · obtain ⟨action, fields, spec, hc⟩ := ih found
          exact ⟨action, fields, spec, { hc with }⟩
        · exact ih hget

def rewiredTask (P : Platform) (task : Task) (declared : List String) : Task :=
  revisedTask P task { task with
    declared_depends_on := declared
    depends_on := sortedSet (declared ++ task.inferred_depends_on) }

section
variable (h : planDecision P ctx expansions actions = .ok planned) (hm : action ∈ actions)
  (hrewires : rewires id action = true)
include h hm hrewires

/-- An action that rewires a task was applied between the steps before it and the steps after it. -/
theorem rewired_at :
    ∃ before task declared, WorkSteps P ctx actions ctx.tasks before ∧ before.get? id = some task ∧
      task.live = true ∧ task.state ≠ .claimed ∧
      declared = sorted (statedTexts (field action.fields "depends_on")) ∧
      (∀ name ∈ declared, ∃ other, before.get? name = some other) ∧
      WorkSteps P ctx actions before (before.put id (rewiredTask P task declared)) ∧
      WorkSteps P ctx actions (before.put id (rewiredTask P task declared)) planned.working := by
  obtain ⟨before, after, index, hbefore, happly, hafter⟩ := planDecision_applied h hm
  simp only [rewires, Bool.and_eq_true, decide_eq_true_eq, Json.str?_eq_some] at hrewires
  obtain ⟨hname, htarget⟩ := hrewires
  have hstep := (applyAction_ok happly).steps hm
  simp only [applyAction, hname, bind_ok] at happly
  obtain ⟨_, -, happly⟩ := happly
  have hedited : ∃ id' task edited, Revising P ctx before action id' task edited after :=
    editTask_ok (fun _ _ _ => setDependencies_ok hname) happly
  obtain ⟨id', task, edited, hr⟩ := hedited
  cases htarget.symm.trans hr.stated
  rw [hr.after] at hstep hafter
  cases hr.edit with
  | depended _ declared known unclaimed =>
    exact ⟨before.working, task, _, hbefore, hr.found, hr.live, unclaimed, declared, known, hstep, hafter⟩
  | bound name | prioritized name | dispatched name => rw [hname] at name; cases name

theorem rewired_edge (hkept : EdgeKept ctx actions id producer) :
    ∃ task, planned.working.get? id = some task ∧ producer ∈ task.depends_on := by
  obtain ⟨before, task, declared, hbefore, hfound, hlive, hunclaimed, rfl, -, hstep, hafter⟩ :=
    rewired_at h hm hrewires
  have hold : ∀ old, ctx.tasks.get? id = some old → Redecided old task := by
    intro old hold
    obtain ⟨task', htask', hredecided⟩ := WorkSteps.redecided hbefore hold
    rw [hfound] at htask'; cases htask'
    exact hredecided
  have hstated := hkept action hm hrewires fun old hget => (hold old hget).rewirable hlive hunclaimed
  exact WorkSteps.keeps_edge (hbefore.trans hstep) hkept hafter get?_put_self
    (mem_sortedSet.mpr (mem_append_left _ (mem_sorted.mpr hstated)))

end

end

-- One decision

/-- Every task has an edge to each task whose output it consumes. -/
def Wired (task? : String → Option Task) : Prop :=
  ∀ id task, task? id = some task → ∀ producer ∈ consumed task.inputs, ∀ other,
    task? producer = some other → producer ∈ task.depends_on

section
variable {ctx : PlanContext} {plan : PlannedDecision} {after : RunTables}

theorem consumersWait_stored (hok : consumersWait P db submission = true)
    (hold : db.task? submission.key id = some old) (hm : producer ∈ consumed old.inputs)
    (hknown : (∃ other, db.task? submission.key producer = some other) ∨
      producer ∈ createdIds P submission.parsed.decision_id submission.parsed.actions) :
    edgeStated (if old.rewirable then submission.parsed.actions else []) id producer old.inferred_depends_on
      ((db.tasks submission.key).contains producer || old.depends_on.contains producer)
      old.claim_id.isNone = true := by
  simp only [consumersWait, Bool.and_eq_true, all_eq_true, Bool.or_eq_true, Bool.not_eq_true',
    Bool.or_eq_false_iff] at hok
  obtain ⟨row, hrow, rfl⟩ := Db.task?_eq_some.mp hold
  rcases hok.1 (id, row) (get?_eq_some.mp hrow) producer hm with hunknown | hstated
  · obtain ⟨hnone, hnew⟩ := hunknown
    rcases hknown with ⟨other, hother⟩ | hcreated
    · obtain ⟨row', hrow', -⟩ := Db.task?_eq_some.mp hother
      rw [contains_eq_false] at hnone
      rw [hnone] at hrow'; cases hrow'
    · rw [List.contains_iff_mem.mpr hcreated] at hnew; cases hnew
  · exact hstated

theorem consumersWait_created
    (hok : consumersWait P db submission = true) (listed : action ∈ submission.parsed.actions)
    (stated : .object fields ∈ statedItems action) (hm : producer ∈ consumed (statedInputs fields))
    (hknown : producer ∈ createdIds P submission.parsed.decision_id submission.parsed.actions) :
    edgeStated submission.parsed.actions (memberId P submission.parsed.decision_id fields) producer
      (inferredDependencies (statedInputs fields) (knownProducers db submission.key))
      ((statedTexts (fieldD fields "depends_on" (.list []))).contains producer) true = true := by
  simp only [consumersWait, Bool.and_eq_true, all_eq_true] at hok
  have hitem := hok.2 (.object fields) (List.mem_flatMap.mpr ⟨action, listed, stated⟩)
  simp only [Json.object?, Option.all_some, all_eq_true] at hitem
  simpa [hknown] using hitem producer hm

theorem edgeStated_iff {present unclaimed : Bool} :
    edgeStated actions id producer inferred present unclaimed = true ↔ producer ∈ inferred ∨
        (present = true ∨ unclaimed = true ∧ ∃ action ∈ actions, rewires id action = true) ∧
        ∀ action ∈ actions, rewires id action = true →
          producer ∈ statedTexts (field action.fields "depends_on") := by
  simp only [edgeStated, statesEdge, Bool.or_eq_true, Bool.and_eq_true, contains_iff_mem,
    any_eq_true, all_eq_true, Bool.not_eq_true']
  refine or_congr_right (and_congr_right fun _ => forall₂_congr fun action _ => ?_)
  cases rewires id action <;> simp

section
variable (h : PlannedFrom P (db.runs submission.key) submission ctx plan after)
include h

theorem PlannedFrom.mem_producers :
    producer ∈ ctx.producers ↔ producer ∈ knownProducers db submission.key := by
  obtain ⟨run, hrun, hproducers⟩ := h.producers
  simp only [runRow, bind_ok, need_ok, pure_ok] at hrun
  obtain ⟨_, hrun, -, -, rfl⟩ := hrun
  rw [hproducers, knownProducers, hrun]
  simp only [List.mem_append, Option.elim_some, Dict.mem_keys, h.context]
  simp [Db.tasks]

theorem PlannedFrom.created (hget : plan.working.get? id = some task) (hnew : ctx.tasks.get? id = none) :
    id ∈ createdIds P submission.parsed.decision_id submission.parsed.actions := by
  obtain ⟨action, fields, spec, hc⟩ := h.steps.created hget hnew
  rw [hc.named, h.decision_id]
  exact mem_createdIds hc.listed hc.stated

theorem PlannedFrom.wired (hok : consumersWait P db submission = true) (himplied : Implied ctx.tasks.get?)
    (hwired : Wired (db.task? submission.key)) : Wired plan.working.get? := by
  intro id task hget producer hm other hother
  have hcontext : ∀ id, ctx.tasks.get? id = db.task? submission.key id := fun _ => h.context
  have himplied' : ∀ name ∈ task.inferred_depends_on, name ∈ task.depends_on :=
    h.steps.implied himplied id task hget
  have hknown : (∃ other, db.task? submission.key producer = some other) ∨
      producer ∈ createdIds P submission.parsed.decision_id submission.parsed.actions := by
    cases hstored : db.task? submission.key producer with
    | some other => exact .inl ⟨other, rfl⟩
    | none => exact .inr (h.created hother ((hcontext producer).trans hstored))
  cases hold : ctx.tasks.get? id with
  | some old =>
    obtain ⟨task', htask', hr⟩ := h.steps.redecided hold
    rw [hget] at htask'; cases htask'
    rw [hr.inputs] at hm
    rw [hr.inferred_depends_on] at himplied'
    have hstored := (hcontext id).symm.trans hold
    rcases edgeStated_iff.mp (consumersWait_stored hok hstored hm hknown) with
      hinferred | ⟨hpresent, hkeep⟩
    · exact himplied' _ hinferred
    · have hkept : EdgeKept ctx submission.parsed.actions id producer := by
        intro action listed hrewires hrewirable
        refine hkeep action ?_ hrewires
        rw [if_pos (hrewirable old hold)]
        exact listed
      have hfinal : ∃ task', plan.working.get? id = some task' ∧ producer ∈ task'.depends_on := by
        rcases hpresent with hpresent | ⟨-, action, listed, hrewires⟩
        · refine WorkSteps.keeps_edge .refl hkept h.steps hold ?_
          rw [Bool.or_eq_true, contains_iff_mem] at hpresent
          rcases hpresent with hproducer | hedge
          · obtain ⟨row, hrow⟩ := Dict.mem_keys.mp (Dict.contains_iff.mp hproducer)
            exact hwired id old hstored producer hm row.record (Db.task?_eq_some.mpr ⟨row, hrow, rfl⟩)
          · exact hedge
        · split at listed
          · exact rewired_edge h.planned listed hrewires hkept
          · cases listed
      obtain ⟨task', htask', hedge⟩ := hfinal
      rw [hget] at htask'; cases htask'
      exact hedge
  | none =>
    obtain ⟨action, fields, spec, hc⟩ := h.steps.created hget hold
    have hinputs : statedInputs fields = spec.inputs := by
      rw [statedInputs, hc.accepted.inputs]
      rfl
    rw [hc.inputs, ← hinputs] at hm
    have hinferred : producer ∈ knownProducers db submission.key → producer ∈ task.depends_on := by
      intro hproducer
      refine himplied' producer ?_
      rw [hc.inferred, hc.accepted.inferred, ← hinputs]
      exact mem_inferredDependencies.mpr ⟨hm, h.mem_producers.mpr hproducer⟩
    rcases hknown with ⟨other, hstored⟩ | hcreated
    · apply hinferred
      obtain ⟨row, hrow, -⟩ := Db.task?_eq_some.mp hstored
      exact mem_append_right _ (Dict.mem_keys.mpr ⟨row, hrow⟩)
    · rcases edgeStated_iff.mp (consumersWait_created hok hc.listed hc.stated hm hcreated) with
        hbinding | ⟨hpresent, hkeep⟩
      · exact hinferred (mem_inferredDependencies.mp hbinding).2
      · rw [← h.decision_id, ← hc.named] at hpresent hkeep
        have hkept : EdgeKept ctx submission.parsed.actions id producer := fun action listed hrewires _ =>
          hkeep action listed hrewires
        rcases hpresent with hdeclared | ⟨-, rewiring, listed, hrewires⟩
        · refine hc.edges producer ?_ hkept
          rw [hc.accepted.depends]
          exact mem_sortedSet.mpr (mem_append_left _ (List.contains_iff_mem.mp hdeclared))
        · obtain ⟨task', htask', hedge⟩ := rewired_edge h.planned listed hrewires hkept
          rw [hget] at htask'; cases htask'
          exact hedge

end

end

-- Every run

theorem Handled.depends_on (h : Handled P old new) : new.depends_on = old.depends_on := by
  cases h <;> rfl

theorem Handled.edges {task? : String → Option Task} (h : Handled P old new)
    (hget : (if name = id then some new else task? name) = some task) (found : task? id = some old) :
    ∃ before, task? name = some before ∧ task.inputs = before.inputs ∧
      task.inferred_depends_on = before.inferred_depends_on ∧ task.depends_on = before.depends_on := by
  split at hget
  case isTrue hname =>
    cases hget
    rw [hname]
    exact ⟨old, found, h.fixed.inputs, h.fixed.inferred_depends_on, h.depends_on⟩
  · exact ⟨task, hget, rfl, rfl, rfl⟩

theorem serve_wired {request : Request} (hok : ConsumersWait P store request)
    (himplied : Implied (store.db.task? key)) (hwired : Wired (store.db.task? key)) :
    Implied ((store.serve P request).db.task? key) ∧ Wired ((store.serve P request).db.task? key) := by
  have hmove := serve_table P store request key
  generalize (store.serve P request).db.task? key = table at hmove
  cases hmove with
  | same => exact ⟨himplied, hwired⟩
  | handled found handled =>
    refine ⟨?_, ?_⟩
    · intro name task hget dependency hm
      obtain ⟨before, hbefore, -, hinferred, hdepends⟩ := handled.edges hget found
      rw [hinferred] at hm
      rw [hdepends]
      exact himplied name before hbefore dependency hm
    · intro name task hget producer hm other hother
      obtain ⟨before, hbefore, hinputs, -, hdepends⟩ := handled.edges hget found
      obtain ⟨other', hother', -⟩ := handled.edges hother found
      rw [hinputs] at hm
      rw [hdepends]
      exact hwired name before hbefore producer hm other' hother'
  | @decided _ _ _ _ _ submission ctx plan _ read planned =>
    have hmeets := decisionMeets_ok hok read planned
    cases (readSubmission_ok read).1
    have hcontext : ctx.tasks.get? = store.db.task? submission.key := funext fun _ => planned.context
    rw [← hcontext] at himplied
    exact ⟨planned.steps.implied himplied, planned.wired hmeets himplied hwired⟩

theorem tasks_wired (h : (schedulingStore P).Reach (ConsumersWait P) store) (key : RunKey) :
    Implied (store.db.task? key) ∧ Wired (store.db.task? key) := by
  refine h.invariant (I := fun store => Implied (store.db.task? key) ∧ Wired (store.db.task? key)) ?_ ?_
  · rintro _ ⟨projects, rfl⟩
    refine ⟨?_, ?_⟩
    · intro id task htask
      cases htask
    · intro id task htask
      cases htask
  · rintro store request ⟨himplied, hwired⟩ hok
    exact serve_wired hok himplied hwired

/-- A claimed task found every task it waits for, and every task whose output it
consumes was there when it was claimed. -/
structure Consuming (task? later? : String → Option Task) (id : String) (inputs : Fields) (task : Task) :
    Prop where
  found : later? id = some task
  claimed : task.claim_id ≠ none
  same_inputs : task.inputs = inputs
  edges : ∀ name ∈ task.depends_on, ∃ other, later? name = some other
  producers : ∀ producer ∈ consumed inputs, ∀ other, later? producer = some other →
    ∃ before, task? producer = some before

section
variable {ctx : PlanContext} {action : ParsedAction} {task : Task}

def Known (task? : String → Option Task) (names : List String) : Prop :=
  ∀ name ∈ names, ∃ other, task? name = some other

/-- The references of a task after some steps: it was rewired, to tasks that are known, or it
was not. -/
structure Rewired (actions : List ParsedAction) (working : Dict String Task) (id : String) (task new : Task) : Prop where
  inferred : new.inferred_depends_on = task.inferred_depends_on
  joins : new.joins = task.joins
  depends_on : new.depends_on = task.depends_on ∨ actions.any (rewires id) = true ∧
    ∃ declared, Known working.get? declared ∧
      new.depends_on = sortedSet (declared ++ task.inferred_depends_on)

theorem Known.grows (h : WorkSteps P ctx actions working working') (hknown : Known working.get? names) :
    Known working'.get? names := by
  intro name hm
  obtain ⟨other, hother⟩ := hknown name hm
  obtain ⟨new, hnew, -⟩ := WorkSteps.redecided h hother
  exact ⟨new, hnew⟩

theorem Rewired.grows (hsteps : WorkSteps P ctx actions working working')
    (h : Rewired actions working id task new) : Rewired actions working' id task new :=
  { h with
    depends_on := h.depends_on.imp_right fun ⟨hany, declared, hknown, heq⟩ =>
      ⟨hany, declared, hknown.grows hsteps, heq⟩ }

theorem TaskEdit.rewired (listed : action ∈ actions) (stated : field action.fields "task_id" = .str id)
    (h : TaskEdit ctx working action id task edited) :
    Rewired actions working id task (revisedTask P task edited) := by
  cases h with
  | bound | prioritized | dispatched => exact ⟨rfl, rfl, .inl rfl⟩
  | depended name _ known =>
    refine ⟨rfl, rfl, .inr ⟨List.any_eq_true.mpr ⟨action, listed, ?_⟩, _, known, rfl⟩⟩
    simp [rewires, name, stated, Json.str?]

theorem Rewired.trans (h : Rewired actions working id task middle)
    (h' : Rewired actions working id middle new) : Rewired actions working id task new where
  inferred := h'.inferred.trans h.inferred
  joins := h'.joins.trans h.joins
  depends_on := by
    rcases h'.depends_on with hsame | hrewired
    · rw [hsame]
      exact h.depends_on
    · rw [← h.inferred]
      exact .inr hrewired

theorem WorkStep.rewired (h : WorkStep P ctx actions working working') (hget : working.get? id = some task) :
    ∃ new, working'.get? id = some new ∧ Rewired actions working id task new := by
  have hne : ∀ name, working.get? name = none → name ≠ id := by
    rintro name hnone rfl
    rw [hget] at hnone; cases hnone
  cases h with
  | @edited id' _ _ _ listed stated found _ edit =>
    by_cases hid : id' = id
    · subst hid
      rw [hget] at found; cases found
      exact ⟨_, get?_put_self, edit.rewired listed stated⟩
    · exact ⟨task, by rw [get?_put_of_ne hid, hget], rfl, rfl, .inl rfl⟩
  | added _ _ _ fresh =>
    exact ⟨task, by rw [get?_put_of_ne (hne _ fresh), hget], rfl, rfl, .inl rfl⟩
  | @replaced _ _ _ _ replaced _ _ _ _ fresh _ found =>
    rw [get?_put_of_ne (hne _ fresh)]
    by_cases hid : replaced = id
    · subst hid
      rw [hget] at found; cases found
      exact ⟨_, get?_put_self, rfl, rfl, .inl rfl⟩
    · exact ⟨task, by rw [get?_put_of_ne hid, hget], rfl, rfl, .inl rfl⟩

theorem WorkSteps.rewired (h : WorkSteps P ctx actions working working') (hget : working.get? id = some task) :
    ∃ new, working'.get? id = some new ∧ Rewired actions working' id task new := by
  induction h with
  | refl => exact ⟨task, hget, rfl, rfl, .inl rfl⟩
  | @tail middle after hsteps hstep ih =>
    obtain ⟨before, hbefore, hr⟩ := ih
    obtain ⟨new, hnew, hr'⟩ := hstep.rewired hbefore
    exact ⟨new, hnew, (hr.grows (.single hstep)).trans (hr'.grows (.single hstep))⟩

theorem WorkSteps.edges_known (h : WorkSteps P ctx actions ctx.tasks working)
    (himplied : Implied ctx.tasks.get?) (hold : ctx.tasks.get? id = some old)
    (hknown : Known ctx.tasks.get? old.depends_on) (hget : working.get? id = some task) :
    Known working.get? task.depends_on := by
  obtain ⟨new, hnew, hr⟩ := WorkSteps.rewired h hold
  cases hget.symm.trans hnew
  rcases hr.depends_on with hsame | ⟨-, declared, hdeclared, heq⟩
  · rw [hsame]
    exact hknown.grows h
  · intro name hm
    rw [heq] at hm
    rcases List.mem_append.mp (mem_sortedSet.mp hm) with hm | hm
    · exact hdeclared name hm
    · exact hknown.grows h name (himplied id old hold name hm)

end

theorem serve_consuming {inputs : Fields}
    (hok : ConsumersWait P store request) (himplied : Implied (store.db.task? key))
    (h : Consuming task? (store.db.task? key) id inputs task) :
    ∃ after, Consuming task? ((store.serve P request).db.task? key) id inputs after := by
  have hmove := serve_table P store request key
  generalize (store.serve P request).db.task? key = table at hmove
  cases hmove with
  | same => exact ⟨task, h⟩
  | @handled _ id' old new found handled =>
    have hgrows : ∀ name other, store.db.task? key name = some other →
        ∃ other', (if name = id' then some new else store.db.task? key name) = some other' := by
      intro name other hother
      split
      · exact ⟨new, rfl⟩
      · exact ⟨other, hother⟩
    have hproducers : ∀ producer ∈ consumed inputs, ∀ other,
        (if producer = id' then some new else store.db.task? key producer) = some other →
        ∃ before, task? producer = some before := by
      intro producer hm other hother
      obtain ⟨before, hbefore, -⟩ := handled.edges hother found
      exact h.producers producer hm before hbefore
    have hedges : ∀ name ∈ task.depends_on, ∃ other,
        (if name = id' then some new else store.db.task? key name) = some other := by
      intro name hm
      obtain ⟨other, hother⟩ := h.edges name hm
      exact hgrows name other hother
    by_cases hid : id = id'
    · subst hid
      have hsame := h.found
      rw [found] at hsame; cases hsame
      refine ⟨new, if_pos rfl, handled.claim_id h.claimed, handled.fixed.inputs.trans h.same_inputs, ?_,
        hproducers⟩
      rw [handled.depends_on]
      exact hedges
    · exact ⟨task, (if_neg hid).trans h.found, h.claimed, h.same_inputs, hedges, hproducers⟩
  | @decided _ _ _ _ _ submission ctx plan _ read planned =>
    have hmeets := decisionMeets_ok hok read planned
    cases (readSubmission_ok read).1
    have hcontext : ctx.tasks.get? = store.db.task? submission.key := funext fun _ => planned.context
    have hold := h.found
    rw [← hcontext] at hold
    obtain ⟨after, hafter, hr⟩ := planned.steps.redecided hold
    have himplied' := himplied
    rw [← hcontext] at himplied'
    refine ⟨after, hafter, by rw [hr.claim_id]; exact h.claimed, hr.inputs.trans h.same_inputs, ?_, ?_⟩
    · exact planned.steps.edges_known himplied' hold (by rw [hcontext]; exact h.edges) hafter
    · intro producer hm other hother
      cases hstored : store.db.task? submission.key producer with
      | some before => exact h.producers producer hm before hstored
      | none =>
        -- a task that is created now is no task a claimed one has an edge to
        have hnoedge : producer ∉ task.depends_on := by
          intro hedge
          obtain ⟨before, hbefore⟩ := h.edges producer hedge
          rw [hstored] at hbefore; cases hbefore
        have hcreated := planned.created hother (by rw [hcontext, hstored])
        rw [← h.same_inputs] at hm
        rcases edgeStated_iff.mp (consumersWait_stored hmeets h.found hm (.inr hcreated)) with
          hinferred | ⟨hpresent | ⟨hunclaimed, -⟩, -⟩
        · exact absurd (himplied id task h.found producer hinferred) hnoedge
        · rw [Bool.or_eq_true, contains_iff_mem] at hpresent
          rcases hpresent with hproducer | hedge
          · obtain ⟨row, hrow⟩ := Dict.mem_keys.mp (Dict.contains_iff.mp hproducer)
            rw [Db.task?_eq_some.mpr ⟨row, hrow, rfl⟩] at hstored; cases hstored
          · exact absurd hedge hnoedge
        · exact absurd (Option.isNone_iff_eq_none.mp hunclaimed) h.claimed

theorem claim_finds (h : (schedulingStore P).Reach System.free store)
    (hclaim : claim P store.db key payload principal command_key clock = .ok (result, db'))
    (hfresh : result.2 = true) : ∃ old new, store.db.task? key result.1.task_id = some old ∧
      (∀ name ∈ old.depends_on, ∃ found, store.db.task? key name = some found ∧
        found.state = .completed) ∧
      Handled P old new ∧ new.claim_id ≠ none ∧
      db'.task? key = fun name => if name = result.1.task_id then some new else store.db.task? key name := by
  rcases claim_ok hclaim with ⟨hrepeat, -⟩ | ⟨claim_key, task_id, document, grant, admission, digest, hc, rfl,
      rfl⟩
  · rw [hrepeat] at hfresh; cases hfresh
  · obtain ⟨tasks, _, htasks, hdocument, -, hready⟩ := hc.found
    have htask : ∀ name, tasks.get? name = store.db.task? key name := fun _ => tasksOf_ok htasks
    have hnamed : document.task_id = task_id := hc.named h
    subst hnamed
    have hhandled : Handled P document (claimedTask P document principal (claimId P key claim_key)
        (clock 1)) := .claimed hc.ready
    refine ⟨document, _, hc.stored, ?_, hhandled, ?_, ?_⟩
    · intro name hm
      obtain ⟨found, hfound, hcompleted⟩ := hready.completed name hm
      exact ⟨found, (htask name).symm.trans hfound, hcompleted⟩
    · simp
    · funext name
      rw [Db.task?, claimedDb, Db.setRun_runs_self]
      exact congrFun (updateTask_task? hc.stored) name

/-- While no decision leaves a task without an edge to a task whose output it
consumes, every task has these edges. Whenever a claim hands a task out, each task
whose output it consumes had completed, also if the run goes on. -/
theorem consumers_wait (h : (schedulingStore P).Reach (ConsumersWait P) store) (key : RunKey) :
    Wired (store.db.task? key) ∧
    ∀ payload principal command_key clock result db',
      claim P store.db key payload principal command_key clock = .ok (result, db') → result.2 = true →
      ∀ later, (schedulingStore P).Path (ConsumersWait P) { store with db := db' } later →
      ∀ task, store.db.task? key result.1.task_id = some task →
      ∀ producer ∈ consumed task.inputs, ∀ other, later.db.task? key producer = some other →
        ∃ found, store.db.task? key producer = some found ∧ found.state = .completed := by
  obtain ⟨himplied, hwired⟩ := tasks_wired h key
  refine ⟨hwired, ?_⟩
  intro payload principal command_key clock result db' hclaim hfresh later hpath task htask producer hm
    other hother
  obtain ⟨old, new, hold, hcompleted, hhandled, hclaimed, htable⟩ := claim_finds h.free hclaim hfresh
  rw [htask] at hold; cases hold
  have hafter : (schedulingStore P).Reach (ConsumersWait P) { store with db := db' } := by
    have hstep := h.step (show ConsumersWait P store (.claim key payload principal command_key clock)
      from rfl)
    simpa only [schedulingStore, Store.serve, hclaim, committed] using hstep
  have hstart : Consuming (store.db.task? key) (db'.task? key) result.1.task_id task.inputs new := by
    refine ⟨by rw [htable]; exact if_pos rfl, hclaimed, hhandled.fixed.inputs, ?_, ?_⟩
    · intro name hname
      rw [hhandled.depends_on] at hname
      obtain ⟨found, hfound, -⟩ := hcompleted name hname
      rw [htable]
      by_cases hid : name = result.1.task_id
      · exact ⟨new, if_pos hid⟩
      · exact ⟨found, (if_neg hid).trans hfound⟩
    · intro name _ other hother
      rw [htable] at hother
      obtain ⟨before, hbefore, -⟩ := hhandled.edges hother htask
      exact ⟨before, hbefore⟩
  have hend : ∃ after, Consuming (store.db.task? key) (later.db.task? key) result.1.task_id task.inputs
      after := by
    clear hother
    induction hpath with
    | refl => exact ⟨new, hstart⟩
    | step hpath hok ih =>
      obtain ⟨middle, hmiddle⟩ := ih
      exact serve_consuming hok (tasks_wired (hafter.path hpath) key).1 hmiddle
  obtain ⟨after, hconsuming⟩ := hend
  obtain ⟨before, hbefore⟩ := hconsuming.producers producer hm other hother
  obtain ⟨found, hfound, hstate⟩ := hcompleted producer (hwired _ _ htask producer hm before hbefore)
  exact ⟨found, hfound, hstate⟩

end

namespace Sample

def readable : List Request :=
  [.createRun key "owner" "1" "" true { frozen with
     definitions := { frozen.definitions with execution_kinds := .ofList [("k", ⟨["n"], [], []⟩)] } },
   .observeResource user "q" ⟨.remaining, some 9, none, "manual"⟩,
   .activateResourcePolicy user "q" ⟨9, 0⟩,
   .issueGrant key (.object [("grant_id", .str "g"), ("subject_ref", .str "s"),
     ("role_instance", .str "i"), ("allowed_actions", Json.ofTexts ["expand_graph", "seal"]),
     ("inputs", Json.ofTexts ["d1.1.output"]), ("scope", Json.ofTexts ["d"]),
     ("write_scope", Json.ofTexts ["d"]), ("required_outcomes", Json.ofTexts ["o"]),
     ("role_refs", .object [("a", .str "b")]), ("resource_policy", resourcePolicy)]) 0,
   .createExpansion key "g" (expansion "e") 0]

def reading (fields : Fields) : List Request :=
  readable ++ [submit "1" 0 (expand "e"
    [task "1", task "2" ([("inputs", .object [("n", .str "d1.1.output")])] ++ fields)]
    ["d1.1", "d1.2"])]

def produced : List Request :=
  reading [("depends_on", Json.ofTexts ["d1.1"])] ++ [claim "1" "d1.1", report "d1.1" "completed" user true]

def consumption (store : Store) (task_id : String) : Option (List String × List String) :=
  (store.db.task? key task_id).map fun task => (consumed task.inputs, task.depends_on)

end Sample

open Sample in
/-- The second task is handed out when the first one is completed. -/
theorem consumers_wait_produced :
    ∃ result db' found, claim platform (after produced).db key
        (claimPayload "2" "d1.2") worker "2" clock = .ok (result, db') ∧
      result.2 = true ∧ (after produced).db.task? key "d1.1" = some found ∧
      found.state = .completed := by
  have hreach : system.Reach (ConsumersWait platform) (after produced) :=
    .of_run start_initial (by decide +kernel)
  have hok : (claim platform (after produced).db key
      (claimPayload "2" "d1.2") worker "2" clock).toOption.map
        (fun answer => (answer.1.2, answer.1.1.task_id, (answer.2.task? key "d1.1").isSome)) =
      some (true, "d1.2", true) := by
    decide +kernel
  have hconsumes : consumption (after produced) "d1.2" = some (["d1.1"], ["d1.1"]) := by
    decide +kernel
  generalize after produced = store at hreach hok hconsumes ⊢
  obtain ⟨⟨result, db'⟩, hclaim, hfacts⟩ := ok_of_map hok
  simp only [Prod.mk.injEq] at hfacts
  obtain ⟨hfresh, hid, hthere⟩ := hfacts
  obtain ⟨task, htask, hedges⟩ := Option.map_eq_some_iff.mp hconsumes
  simp only [Prod.mk.injEq] at hedges
  obtain ⟨other, hother⟩ := Option.isSome_iff_exists.mp hthere
  obtain ⟨found, hfound, hstate⟩ := (consumers_wait hreach key).2 _ _ _ _ result db' hclaim hfresh
    _ .refl task (by rw [hid, htask]) "d1.1" (by simp [hedges.1]) other hother
  exact ⟨result, db', found, hclaim, hfresh, hfound, hstate⟩

open Sample in
/-- A task that states no edge to a task of its own decision is handed out first. -/
theorem consumer_handed_out_first : ∃ store result db' consumer producer, system.Reach System.free store ∧
      claim platform store.db key (claimPayload "2" "d1.2") worker "2"
        clock = .ok (result, db') ∧ result.2 = true ∧ result.1.task_id = "d1.2" ∧
      store.db.task? key "d1.2" = some consumer ∧ "d1.1" ∈ consumed consumer.inputs ∧
      "d1.1" ∉ consumer.depends_on ∧
      store.db.task? key "d1.1" = some producer ∧ producer.state = .queued := by
  have hreach := after_reach (reading [])
  have hok : (claim platform (after (reading [])).db key
      (claimPayload "2" "d1.2") worker "2" clock).toOption.map
        (fun answer => (answer.1.2, answer.1.1.task_id)) = some (true, "d1.2") := by
    decide +kernel
  have hfound : consumption (after (reading [])) "d1.2" = some (["d1.1"], []) ∧
      ((after (reading [])).db.task? key "d1.1").map Task.state = some .queued := by
    decide +kernel
  generalize after (reading []) = store at hreach hok hfound ⊢
  obtain ⟨⟨result, db'⟩, hclaim, hfacts⟩ := ok_of_map hok
  simp only [Prod.mk.injEq] at hfacts
  obtain ⟨hfresh, hid⟩ := hfacts
  obtain ⟨hconsumes, hqueued⟩ := hfound
  obtain ⟨consumer, hconsumer, hedges⟩ := Option.map_eq_some_iff.mp hconsumes
  obtain ⟨producer, hproducer, hstate⟩ := Option.map_eq_some_iff.mp hqueued
  simp only [Prod.mk.injEq] at hedges
  exact ⟨store, result, db', consumer, producer, hreach, hclaim, hfresh, hid, hconsumer,
    by simp [hedges.1], by simp [hedges.2], hproducer, hstate⟩

end Karajan.Scheduling
