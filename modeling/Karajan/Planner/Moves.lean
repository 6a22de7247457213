import Karajan.Planner.Confined
import Karajan.Planner.Planning

/-!
# What a command does to a run

A command that is accepted takes one of six moves on its run. Each move says
what the command had checked by then, and everything that it changes.
-/

namespace Karajan.Planner

open List Check

-- Accepted plans

section
variable {plan : Plan}

def Plan.DependsOn (plan : Plan) (dependency id : String) : Prop :=
  ∃ task ∈ plan.tasks, task.id = id ∧ dependency ∈ task.depends_on

/-- A proposal within a ceiling whose tasks can be done one after the other. -/
structure WellPlanned (L : Library) (plan : Plan) (ceiling : Authorization) : Prop where
  within : Within L plan.authorization ceiling
  distinct : plan.ids.Nodup
  closed : ∀ task ∈ plan.tasks, ∀ dependency ∈ task.depends_on, dependency ∈ plan.ids
  paths : ∀ task ∈ plan.tasks, ∀ path ∈ task.paths, ∃ root ∈ plan.roots task, Below L root path
  acyclic : ∀ id, ¬ Relation.TransGen plan.DependsOn id id

theorem task_found (hd : plan.ids.Nodup) (ht : task ∈ plan.tasks) : plan.dependsOn task.id = task.depends_on := by
  have hfind : plan.tasks.find? (·.id = task.id) = some task := (Listing.find_eq_some hd).mpr ⟨ht, rfl⟩
  rw [Plan.dependsOn, hfind]
  rfl

theorem validateTask_ok (h : validateTask L plan task = .ok u) :
    (∀ dependency ∈ task.depends_on, dependency ∈ plan.ids) ∧
      ∀ path ∈ task.paths, ∃ root ∈ plan.roots task, Below L root path := by
  simp only [validateTask, bind_ok, ensure_ok, Bool.and_eq_true, all_eq_true, decide_eq_true_eq] at h
  obtain ⟨_, ⟨-, hdeps⟩, _, -, _, -, b, hpaths, rfl⟩ := h
  exact ⟨hdeps, fun path hp => covered_below (allM_true.mp hpaths path hp)⟩

theorem validatePlan_ok (h : validatePlan L plan ceiling = .ok u) : WellPlanned L plan ceiling := by
  simp only [validatePlan, bind_ok, ensure_ok, decide_eq_true_eq] at h
  obtain ⟨_, hauthorize, _, hd, _, htasks, hpeel⟩ := h
  have htask : ∀ task ∈ plan.tasks, _ := fun task ht =>
    validateTask_ok (each_ok htasks task ht).choose_spec.1
  have hacc := Layers.peel_acc hpeel (by simp)
  refine ⟨authorize_ok.mp hauthorize, hd, fun task ht => (htask task ht).1,
    fun task ht => (htask task ht).2, fun id hcycle => ?_⟩
  have hneeds : ∀ a b, plan.DependsOn a b → Layers.Needed plan.dependsOn a b := by
    rintro a _ ⟨task, ht, rfl, ha⟩
    rw [Layers.Needed, task_found hd ht]
    exact ha
  have hmem : id ∈ plan.ids := by
    obtain ⟨task, ht, hid, -⟩ : ∃ task ∈ plan.tasks, task.id = id ∧ _ := by
      cases hcycle with
      | single h | tail _ h => exact ⟨h.choose, h.choose_spec.1, h.choose_spec.2.1, trivial⟩
    exact List.mem_map.mpr ⟨task, ht, hid⟩
  exact Layers.not_cycle_of_acc (hacc id hmem) (Relation.TransGen.mono hneeds id id hcycle)

end

section
def PlanWithin (L : Library) (run : Run) : PlanDocument → Prop
  | .v1 plan => ∃ ceiling, run.authorization_ceiling = .v1 ceiling ∧ WellPlanned L plan ceiling
  | .v2 plan => ∃ policy ceiling, run.authorization_ceiling = .v2 policy ceiling ∧
    WellPlanned L plan.base ceiling.toAuthorization ∧
    Confined L ⟨policy, run.configuration_snapshot, ceiling⟩ plan.authorization

theorem planImpact_ok (h : planImpact plan run = .ok impact) :
    impact = impactOf plan (run.activePlan.map (·.plan)) := by
  simp only [planImpact, bind_ok, pure_ok] at h
  obtain ⟨-, -, rfl⟩ := h
  rfl

theorem checkProposal_ok (h : checkProposal L run plan run.authorization_ceiling = .ok (impact, binding)) :
    PlanWithin L.toLibrary run plan ∧ impact = impactOf plan (run.activePlan.map (·.plan)) := by
  cases plan with
  | v1 plan =>
    cases hceiling : run.authorization_ceiling with
    | v1 ceiling =>
      simp only [checkProposal, hceiling, bind_ok, pure_ok] at h
      obtain ⟨_, hv, _, hi, ⟨⟩⟩ := h
      exact ⟨⟨ceiling, hceiling, validatePlan_ok hv⟩, planImpact_ok hi⟩
    | v2 policy ceiling => simp [checkProposal, hceiling] at h
  | v2 plan =>
    cases hceiling : run.authorization_ceiling with
    | v1 ceiling => simp [checkProposal, hceiling] at h
    | v2 policy ceiling =>
      simp only [checkProposal, hceiling, bind_ok, pure_ok] at h
      obtain ⟨⟨⟩, hv, _, hi, binding, hb, ⟨⟩⟩ := h
      exact ⟨⟨policy, ceiling, hceiling, validatePlan_ok hv,
        confined_of_accepted hv hb⟩,
        planImpact_ok hi⟩

-- Moves

/-- A plan that may be stored: it was submitted by the commander of the current term, under an
admitted intent of that term, and follows the latest one. -/
structure Submits (L : Library) (run : Run) (p : StoredPlan) : Prop where
  revision : p.plan_revision = run.latest_plan_revision + 1
  current : p.term = run.commander.term
  commander : p.submitted_by = run.commander.principal
  intent : ∃ intent ∈ run.planning_intents, intent.id = p.intent_id ∧
    intent.principal = p.submitted_by ∧ intent.term = p.term ∧ intent.admitted = true
  within : PlanWithin L run p.plan
  impact : p.impact = impactOf p.plan (run.activePlan.map (·.plan))

structure Names (a : Approval) (p : StoredPlan) : Prop where
  term : a.term = p.term
  plan_digest : a.plan_digest = p.plan_digest
  authorization_digest : a.authorization_digest = p.authorization_digest
  configuration_digest : a.configuration_digest = p.configuration_digest
  routing_digest : a.routing_digest.isSome = true → a.routing_digest = p.routing.map RoutingBound.routing_digest

/-- An approval that may be given: of the last plan, of the current term, by the owner. -/
structure Approves (run : Run) (a : Approval) (p : StoredPlan) : Prop where
  last : run.plans.getLast? = some p
  latest : a.plan_revision = run.latest_plan_revision
  current : a.term = run.commander.term
  owner : a.approved_by = run.owner
  versions : a.routing_digest.isSome = run.authorization_ceiling.versionTwo
  names : Names a p
  fresh : run.active_plan_revision ≠ some p.plan_revision

def Run.submitted (run : Run) (p : StoredPlan) : Run :=
  { run with
    plans := run.plans ++ [p]
    latest_plan_revision := p.plan_revision
    state := if run.active_plan_revision.isNone then .awaitingApproval else run.state }

def Run.approved (run : Run) (a : Approval) (p : StoredPlan) : Run :=
  { run with
    approvals := run.approvals ++ [a]
    active_plan_revision := some p.plan_revision
    state := .executing }

def Run.proposed (run : Run) (handoff : Handoff) : Run :=
  { run with handoffs := run.handoffs.map Handoff.supersede ++ [handoff] }

def Run.decided (run : Run) (handoff : Handoff) (approve : Bool) (principal : String) (at_time : Rat) : Run :=
  { run with
    handoffs := amendFirst (·.id = handoff.id) (·.decide approve principal at_time) run.handoffs
    commander := if approve then
        { handoff.candidate with term := run.commander.term + 1, handoff_id := some handoff.id }
      else run.commander }

inductive Move (L : PlannerLibrary) (run : Run) : Run → Prop
  | intent {intent : PlanningIntent} (current : intent.term = run.commander.term)
      (awaiting : intent.receipt = none) :
      Move L run { run with planning_intents := run.planning_intents ++ [intent] }
  | receipt {intent : PlanningIntent} {receipt : PlanningReceipt}
      (found : run.planning_intents.find? (·.id = intent.id) = some intent)
      (current : intent.term = run.commander.term) (awaiting : intent.receipt = none) :
      Move L run (run.attach intent.id receipt)
  | plan {p : StoredPlan} (submits : Submits L.toLibrary run p) : Move L run (run.submitted p)
  | approval {a : Approval} {p : StoredPlan} (approves : Approves run a p) :
      Move L run (run.approved a p)
  | proposal {handoff : Handoff} (pending : handoff.state = .pending)
      (bound : handoff.binding = handoffBinding L run) : Move L run (run.proposed handoff)
  | decision {handoff : Handoff} {approve : Bool} {principal : String} {at_time : Rat}
      (found : run.handoffs.find? (·.id = handoff.id) = some handoff)
      (pending : handoff.state = .pending) (bound : handoff.binding = handoffBinding L run) :
      Move L run (run.decided handoff approve principal at_time)

theorem mapError_ok {x : Except ε α} {f : ε → ε'} : x.mapError f = .ok a ↔ x = .ok a := by
  cases x <;> simp [Except.mapError]

theorem found_id {items : List α} {key : α → String} (h : items.find? (key · = k) = some a) : key a = k := by
  simpa using find?_some h

theorem planningIntent_move (h : planningIntent term principal identity at_time run = .ok (result, changed)) :
    Move L run changed := by
  simp only [planningIntent, checkTerm, bind_ok, ensure_ok, decide_eq_true_eq, pair_ok] at h
  obtain ⟨_, hterm, _, -, _, -, -, rfl⟩ := h
  exact .intent hterm rfl

theorem attachReceipt_move
    (h : attachReceipt intent_id receipt_ref principal receipt run = .ok (result, changed)) :
    Move L run changed := by
  simp only [attachReceipt, checkTerm, bind_ok, ensure_ok, need_ok, decide_eq_true_eq, pair_ok, Option.isNone_iff_eq_none] at h
  obtain ⟨_, -, intent, hfound, _, hterm, _, -, _, hnone, -, rfl⟩ := h
  obtain rfl := found_id hfound
  exact .receipt hfound hterm hnone

theorem planningExecution_move
    (h : planningExecution intent_id execution_id binding_sha256 principal run = .ok (some changed)) :
    Move L run changed := by
  simp only [planningExecution, checkTerm, bind_ok, ensure_ok, need_ok, decide_eq_true_eq] at h
  obtain ⟨_, -, intent, hfound, _, hterm, _, -, hrest⟩ := h
  obtain rfl := found_id hfound
  split at hrest
  case isTrue hnone =>
    simp only [pure_ok, Option.some.injEq] at hrest
    subst hrest
    exact .receipt hfound hterm (Option.isNone_iff_eq_none.mp hnone)
  · obtain ⟨_, -, hnone⟩ := map_ok.mp hrest
    cases hnone

theorem submitPlan_move (h : submitPlan L request held principal run = .ok (result, changed)) :
    Move L run changed := by
  simp only [submitPlan, checkTerm, bind_ok, ensure_ok, need_ok, decide_eq_true_eq, pair_ok, Bool.and_eq_true] at h
  obtain ⟨_, -, _, hterm, _, hcommander, intent, hfound, _, ⟨hprincipal, hintent⟩, _, hadmitted, _, -,
    _, -, proposal, hchecked, receipt, -, _, -, -, rfl⟩ := h
  obtain ⟨hwithin, himpact⟩ := checkProposal_ok (mapError_ok.mp hchecked)
  exact .plan (p := PlanDraft.stored L _) {
    revision := rfl
    current := hterm
    commander := hcommander
    intent := ⟨intent, mem_of_find?_eq_some hfound, rfl, hprincipal, hintent, hadmitted⟩
    within := hwithin
    impact := himpact }

theorem approvePlan_move (h : approvePlan request principal identity at_time run = .ok (result, changed)) :
    Move L run changed := by
  simp only [approvePlan, checkTerm, checkOwner, bind_ok, ensure_ok, need_ok, decide_eq_true_eq,
    pair_ok, approvalBound, Bool.and_eq_true] at h
  obtain ⟨_, hversion, _, howner, _, hterm, _, hlatest, p, hlast, _,
    ⟨⟨⟨⟨⟨hpterm, hplan⟩, hauthorization⟩, hconfiguration⟩, -⟩, hrouting⟩, _, hfresh, -, rfl⟩ := h
  refine .approval (p := p) {
    last := hlast
    latest := hlatest
    current := hterm
    owner := howner
    versions := hversion
    names := ⟨hpterm, hplan, hauthorization, hconfiguration, fun hsome => ?_⟩
    fresh := hfresh }
  simpa [hsome] using hrouting

theorem proposeHandoff_move
    (h : proposeHandoff L request principal identity now later run = .ok (result, changed)) :
    Move L run changed := by
  simp only [proposeHandoff, checkTerm, bind_ok, ensure_ok, need_ok, decide_eq_true_eq, pair_ok] at h
  obtain ⟨_, -, _, -, _, -, candidate, -, _, -, _, -, _, -, -, rfl⟩ := h
  exact .proposal rfl rfl

theorem decideHandoff_move (h : decideHandoff L request principal now later run = .ok (result, changed)) :
    Move L run changed := by
  simp only [decideHandoff, checkTerm, checkOwner, bind_ok, ensure_ok, need_ok, decide_eq_true_eq,
    pair_ok, Bool.and_eq_true] at h
  obtain ⟨_, -, _, hterm, handoff, hfound, _, ⟨hpending, -⟩, _, hbound, _, -, -, rfl⟩ := h
  have hid : handoff.id = request.handoff_id := by simpa using find?_some hfound
  rw [← hid] at hfound ⊢
  rw [hterm]
  exact .decision hfound hpending hbound

end

end Karajan.Planner
