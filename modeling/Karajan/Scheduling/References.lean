import Karajan.Scheduling.Producers

/-!
# The references a decision leaves unknown

Only a decision that rewires a task checks what it names. What a specification
states for the task it creates is stored as it is, and an input may imply a
dependency on a workflow step, which is no task. So a decision leaves every
reference known exactly if what it states, and what was stored before, is known.
-/

namespace Karajan.Scheduling

open List Dict Check
open Sample (platform opened role)
variable {P : Platform} {db db' : Db} {id : String} {ctx : PlanContext} {task : Task}

/-- Whether the references of one task are known after the decision. A task that it rewires keeps
only the dependencies its inputs imply, and gets dependencies that are checked. -/
def settled (P : Platform) (db : Db) (submission : Submission) (id : String)
    (depends_on inferred joins : List String) : Bool :=
  let actions := submission.parsed.actions
  ((if actions.any (rewires id) then inferred else depends_on).all fun name =>
    (db.tasks submission.key).contains name ||
      (createdIds P submission.parsed.decision_id actions).contains name) &&
  joins.all (db.runs submission.key).task_expansions.contains

/-- Whether the decision leaves every reference known, of the tasks there are and of those it states. -/
def knownReferences (P : Platform) (db : Db) (submission : Submission) : Bool :=
  ((db.tasks submission.key).entries.all fun entry =>
    let task := entry.2.record
    settled P db submission entry.1 task.depends_on task.inferred_depends_on task.joins) &&
  (submission.parsed.actions.flatMap statedItems).all fun item => item.object?.all fun fields =>
    let inferred := inferredDependencies (statedInputs fields) (knownProducers db submission.key)
    settled P db submission (memberId P submission.parsed.decision_id fields)
      (statedTexts (fieldD fields "depends_on" (.list [])) ++ inferred) inferred
      (statedTexts (fieldD fields "joins" (.list [])))

def Resolved (task? : String → Option Task) (expansions : Dict String Expansion) (task : Task) : Prop :=
  Known task? task.depends_on ∧ ∀ name ∈ task.joins, ∃ expansion, expansions.get? name = some expansion

-- The sets of a run

theorem addMember_expansions (h : addMember P ctx expansion pointer staged item = .ok staged') :
    staged'.1.expansions = staged.1.expansions := by
  obtain ⟨fields, spec, middle, hadding, hplan, -⟩ := addMember_ok h
  rw [hplan]
  cases hadding.superseding <;> rfl

theorem Applied.sets (h : Applied P ctx plan action plan') (name : String) :
    plan'.expansions.contains name = plan.expansions.contains name := by
  have hput : ∀ {sets : Dict String Expansion} {id : String} {old new : Expansion},
      sets.get? id = some old → (sets.put id new).contains name = sets.contains name := by
    intro sets id old new hold
    by_cases hid : id = name
    · subst hid
      simp [Dict.contains, hold]
    · simp [Dict.contains, Dict.get?_put_of_ne hid]
  cases h with
  | @expanded _ _ _ _ middle _ _ _ found _ _ staged =>
    have hsets : middle.expansions = plan.expansions :=
      foldlM_keeps (I := fun staged => staged.1.expansions = plan.expansions)
        (fun _ _ _ _ hsame h => (addMember_expansions h).trans hsame) staged rfl
    rw [hput (hsets ▸ found), hsets]
  | closed _ _ found => exact hput found
  | revised revising =>
    rw [revising.after]
    simp [Plan.revise, refreshMember, Dict.contains, Dict.get?_mapValues]

theorem planDecision_sets (h : planDecision P ctx expansions actions = .ok planned) (name : String) :
    planned.expansions.contains name = expansions.contains name :=
  foldlM_keeps (I := fun plan => plan.expansions.contains name = expansions.contains name)
    (fun _ _ _ _ hsame h => ((applyAction_ok h).sets name).trans hsame) (planDecision_folded h) rfl

-- What a decision makes of the references of a task

section
variable (h : planDecision P ctx expansions actions = .ok planned)
include h

/-- Of a task that is rewired, what its inputs imply has to be known, of any other one all it depends on. -/
theorem Rewired.known (hget : planned.working.get? id = some new) (hr : Rewired actions planned.working id task new) :
    Known planned.working.get? new.depends_on ↔ Known planned.working.get?
      (if actions.any (rewires id) then task.inferred_depends_on else task.depends_on) := by
  have hkept : ∀ {declared : List String}, Known planned.working.get? declared →
      new.depends_on = sortedSet (declared ++ task.inferred_depends_on) →
      (Known planned.working.get? new.depends_on ↔ Known planned.working.get? task.inferred_depends_on) := by
    intro declared hdeclared heq
    simp only [heq, Known, mem_sortedSet, mem_append, or_imp, forall_and]
    exact and_iff_right hdeclared
  by_cases hany : actions.any (rewires id) = true
  · rw [if_pos hany]
    obtain ⟨action, listed, hrewires⟩ := List.any_eq_true.mp hany
    obtain ⟨before, found, declared, -, -, -, -, -, hknown, hstep, hafter⟩ := rewired_at h listed hrewires
    obtain ⟨new', hnew', hr'⟩ := WorkSteps.rewired hafter get?_put_self
    rw [hget] at hnew'; cases hnew'
    have hsame : found.inferred_depends_on = task.inferred_depends_on := hr'.inferred.symm.trans hr.inferred
    rcases hr'.depends_on with heq | ⟨-, declared', hknown', heq⟩
    · exact hkept (Known.grows (hstep.trans hafter) hknown) (by rw [← hsame]; exact heq)
    · exact hkept hknown' (by rw [← hsame]; exact heq)
  · rw [if_neg hany]
    rcases hr.depends_on with hsame | ⟨hrewired, -⟩
    · rw [hsame]
    · exact absurd hrewired hany

theorem item_created (listed : action ∈ actions) (stated : item ∈ statedItems action) :
    ∃ fields spec first new, item = .object fields ∧
      AcceptedSpec ctx.grant.toAuthority ctx.tasks ctx.producers fields spec ∧
      first.depends_on = spec.depends_on ∧ first.inferred_depends_on = spec.inferred_depends_on ∧
      first.joins = spec.joins ∧
      planned.working.get? (memberId P ctx.decision_id fields) = some new ∧
      Rewired actions planned.working (memberId P ctx.decision_id fields) first new := by
  have hname : action.name = .expandGraph := by
    by_contra hother
    simp [statedItems, hother] at stated
  obtain ⟨before, after, index, -, happly, hafter⟩ := planDecision_applied h listed
  simp only [applyAction, hname, expandGraph, bind_ok, need_ok, Json.list?_eq_some, pure_ok] at happly
  obtain ⟨-, -, _, -, expansion, -, declared, hdeclared, -, -, ⟨middle, members⟩, hstaged, rfl⟩ := happly
  have hitem : item ∈ declared := by simpa [statedItems, hname, hdeclared, Json.list?] using stated
  obtain ⟨place, hplace⟩ := mem_iff_getElem?.mp hitem
  obtain ⟨first, rest, plan, plan', hsplit, -, hadd, hrest⟩ :=
    foldlM_split (a := (item, place)) (mem_zipIdx_iff_getElem?.mpr hplace) hstaged
  obtain ⟨fields, spec, _, hadding, hplan, -⟩ := addMember_ok hadd
  have hcreated : plan'.1.working.get? (memberId P ctx.decision_id fields) =
      some (memberDocument P ctx expansion spec (memberId P ctx.decision_id fields)) := by
    rw [hplan]
    exact get?_put_self
  have hsteps : WorkSteps P ctx actions plan'.1.working middle.working := by
    refine foldlM_keeps (I := fun staged => WorkSteps P ctx actions plan'.1.working staged.1.working) ?_ hrest .refl
    intro staged entry staged' hentry hsteps hadd
    refine hsteps.tail (addMember_step listed ?_ hadd)
    have hm := fst_mem_of_mem_zipIdx (hsplit ▸ mem_append_right _ (mem_cons_of_mem _ hentry))
    simpa [statedItems, hname, hdeclared, Json.list?] using hm
  obtain ⟨new, hnew, hr⟩ := WorkSteps.rewired (hsteps.trans hafter) hcreated
  exact ⟨fields, spec, _, new, hadding.stated, hadding.accepted, rfl, rfl, rfl, hnew, hr⟩

end

-- Whole decisions

section
variable {after : RunTables} {name : String}

theorem PlannedFrom.sets (h : PlannedFrom P tables submission ctx plan after) :
    (∃ expansion, after.task_expansions.get? name = some expansion) ↔ tables.task_expansions.contains name = true := by
  have hsame := planDecision_sets h.planned name
  obtain ⟨revisions, decisions, rfl⟩ := h.after
  change (∃ expansion, (writeExpansions plan.toPlan tables.task_expansions).get? name = some expansion) ↔ _
  rw [get?_writeExpansions]
  cases hplan : plan.expansions.get? name with
  | some expansion => simpa [Dict.contains, hplan] using hsame.symm
  | none => simp [Dict.contains, Option.isSome_iff_exists]

section
variable (h : PlannedFrom P (db.runs submission.key) submission ctx plan after)
include h

theorem PlannedFrom.named :
    (∃ other, plan.working.get? name = some other) ↔ (db.tasks submission.key).contains name = true ∨
      name ∈ createdIds P submission.parsed.decision_id submission.parsed.actions := by
  have hcontext : ctx.tasks.get? name = ((db.tasks submission.key).get? name).map Row.record := h.context
  constructor
  · rintro ⟨other, hother⟩
    cases hstored : (db.tasks submission.key).get? name with
    | some row => exact .inl (contains_of_get? hstored)
    | none => exact .inr (h.created hother (by rw [hcontext, hstored]; rfl))
  · rintro (hstored | hcreated)
    · obtain ⟨row, hrow⟩ := Dict.mem_keys.mp (Dict.contains_iff.mp hstored)
      obtain ⟨new, hnew, -⟩ := h.steps.redecided (hcontext.trans (by rw [hrow]; rfl))
      exact ⟨new, hnew⟩
    · obtain ⟨item, hitem, hname⟩ := List.mem_filterMap.mp hcreated
      obtain ⟨action, listed, stated⟩ := List.mem_flatMap.mp hitem
      obtain ⟨fields, _, _, new, rfl, -, -, -, -, hnew, -⟩ := item_created h.planned listed stated
      obtain rfl : memberId P submission.parsed.decision_id fields = name := Option.some.inj hname
      exact ⟨new, h.decision_id ▸ hnew⟩

/-- The references of a task are settled by what it had, or was stated with, before it was rewired. -/
theorem PlannedFrom.resolved {first new : Task} (hget : plan.working.get? id = some new)
    (hr : Rewired submission.parsed.actions plan.working id first new)
    (hdepends : ∀ name, name ∈ first.depends_on ↔ name ∈ depends_on)
    (hinferred : ∀ name, name ∈ first.inferred_depends_on ↔ name ∈ inferred)
    (hjoins : ∀ name, name ∈ first.joins ↔ name ∈ joins) : Resolved plan.working.get? after.task_expansions new ↔
      settled P db submission id depends_on inferred joins = true := by
  rw [Resolved, hr.known h.planned hget, hr.joins]
  simp only [Scheduling.settled, Bool.and_eq_true, all_eq_true, Bool.or_eq_true, contains_iff_mem, h.sets,
    hjoins, Known, h.named]
  split
  · simp only [hinferred]
  · simp only [hdepends]

theorem PlannedFrom.stored_resolved (hget : (db.tasks submission.key).get? id = some row) :
    ∃ new, plan.working.get? id = some new ∧ (Resolved plan.working.get? after.task_expansions new ↔
      settled P db submission id row.record.depends_on row.record.inferred_depends_on row.record.joins = true) := by
  have hold : ctx.tasks.get? id = some row.record := h.context.trans (congrArg (Option.map Row.record) hget)
  obtain ⟨new, hnew, hr⟩ := h.steps.rewired hold
  exact ⟨new, hnew, h.resolved hnew hr (fun _ => .rfl) (fun _ => .rfl) fun _ => .rfl⟩

theorem PlannedFrom.item_resolved {item : Json}
    (listed : action ∈ submission.parsed.actions) (stated : item ∈ statedItems action) :
    ∃ fields new, item = .object fields ∧
      plan.working.get? (memberId P submission.parsed.decision_id fields) = some new ∧
      (Resolved plan.working.get? after.task_expansions new ↔
        settled P db submission (memberId P submission.parsed.decision_id fields)
          (statedTexts (fieldD fields "depends_on" (.list [])) ++
            inferredDependencies (statedInputs fields) (knownProducers db submission.key))
          (inferredDependencies (statedInputs fields) (knownProducers db submission.key))
          (statedTexts (fieldD fields "joins" (.list []))) = true) := by
  obtain ⟨fields, spec, first, new, hstated, accepted, hdepends, hinferred, hjoins, hnew, hr⟩ :=
    item_created h.planned listed stated
  rw [h.decision_id] at hnew hr
  have himplied : ∀ name, name ∈ spec.inferred_depends_on ↔
      name ∈ inferredDependencies (statedInputs fields) (knownProducers db submission.key) := by
    have hinputs : statedInputs fields = spec.inputs := by
      rw [statedInputs, accepted.inputs]
      rfl
    intro name
    rw [accepted.inferred, hinputs, mem_inferredDependencies, mem_inferredDependencies, h.mem_producers]
  refine ⟨fields, new, hstated, hnew, h.resolved hnew hr (fun name => ?_) (fun name => ?_) fun name => ?_⟩
  · rw [hdepends, accepted.depends, mem_sortedSet, mem_append, mem_append, himplied]
  · rw [hinferred, himplied]
  · rw [hjoins, accepted.joins, mem_sorted]

end

end

namespace Sample

def referring (names : List String) : Json :=
  decision "d1" 0 (expand "e" [Sample.task "1" [("depends_on", Json.ofTexts names), ("joins", Json.ofTexts names)]] ["d1.1"])

def decided (f : Db → α) (answer : Answer × Db) : Option α :=
  match answer.1 with
  | .accepted _ true => some (f answer.2)
  | _ => none

theorem decided_some {f : Db → α} {answer : Answer × Db} (h : decided f answer = some a) :
    ∃ receipt, answer = (.accepted receipt true, answer.2) ∧ f answer.2 = a := by
  unfold decided at h
  split at h
  case h_1 receipt haccepted => exact ⟨receipt, Prod.ext haccepted rfl, Option.some.inj h⟩
  · cases h

end Sample

end Karajan.Scheduling
