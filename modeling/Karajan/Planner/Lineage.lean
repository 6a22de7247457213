import Karajan.Planner.Moves

/-!
# One approved lineage

A run has one line of plans, numbered without a gap, of which the last approved
one is active. Its terms are counted by the handoffs that were approved. The
laws hold of every run that a sequence of commands leads to, and what is stored
of a plan or an approval stays as it is.
-/

namespace Karajan.Planner

open List Check
variable {L : PlannerLibrary} {run changed : Run}

-- The laws of a run

def Run.planAt (run : Run) (revision : Nat) : Option StoredPlan := run.plans.find? (·.plan_revision = revision)

/-- The plan that was active when the plan of that revision was submitted, which is the one
that was approved last among those before. -/
def Run.activeBefore (run : Run) (revision : Nat) : Option StoredPlan :=
  (run.approvals.filter (·.plan_revision < revision)).getLast?.bind (run.planAt ·.plan_revision)

structure Planned (L : Library) (run : Run) (p : StoredPlan) : Prop where
  term : p.term ≤ run.commander.term
  intent : ∃ intent ∈ run.planning_intents, intent.id = p.intent_id ∧
    intent.principal = p.submitted_by ∧ intent.term = p.term ∧ intent.admitted = true
  within : PlanWithin L run p.plan
  impact : p.impact = impactOf p.plan ((run.activeBefore p.plan_revision).map (·.plan))

def Approved (run : Run) (a : Approval) : Prop := ∃ p ∈ run.plans, a.plan_revision = p.plan_revision ∧ Names a p

structure Lineage (L : Library) (run : Run) : Prop where
  revisions : run.plans.map (·.plan_revision) = range' 1 run.latest_plan_revision
  plans : ∀ p ∈ run.plans, Planned L run p
  approvals : ∀ a ∈ run.approvals, Approved run a
  increasing : (run.approvals.map (·.plan_revision)).Pairwise (· < ·)
  active : run.active_plan_revision = run.approvals.getLast?.map (·.plan_revision)
  pending : (run.handoffs.filter (·.state = .pending)).length ≤ 1
  term : run.commander.term = 1 + (run.handoffs.filter (·.state = .approved)).length

-- Revisions

section
variable (h : Lineage L.toLibrary run)
include h

theorem Lineage.bounds (hp : p ∈ run.plans) : 1 ≤ p.plan_revision ∧
    p.plan_revision ≤ run.latest_plan_revision := by
  have hmem : p.plan_revision ∈ range' 1 run.latest_plan_revision := h.revisions ▸ List.mem_map.mpr ⟨p, hp, rfl⟩
  simp only [mem_range'_1] at hmem
  omega

theorem Lineage.last (hp : run.plans.getLast? = some p) : p.plan_revision = run.latest_plan_revision := by
  have hlast : (run.plans.map (·.plan_revision)).getLast? = some p.plan_revision := by simp [hp]
  rw [h.revisions, getLast?_range'] at hlast
  split at hlast
  · cases hlast
  · simp only [Option.some.injEq] at hlast
    omega

theorem Lineage.approval_bounds (ha : a ∈ run.approvals) : a.plan_revision ≤ run.latest_plan_revision := by
  obtain ⟨p, hp, hrevision, -⟩ := h.approvals a ha
  exact hrevision ▸ (h.bounds hp).2

theorem Lineage.activePlan : run.activePlan = run.approvals.getLast?.bind (run.planAt ·.plan_revision) := by
  cases hlast : run.approvals.getLast? with
  | none => simp [Run.activePlan, h.active, hlast]
  | some a => simp [Run.activePlan, h.active, hlast, Run.planAt]

end

-- What a move leaves

section
variable {α : Type} {p q : α → Bool}

theorem mem_amendFirst (hfound : l.find? p = some b) (ha : a ∈ l) (hne : a ≠ b) : a ∈ amendFirst p f l := by
  induction l with
  | nil => cases ha
  | cons c l ih =>
    simp only [amendFirst, find?_cons] at hfound ⊢
    cases hc : p c with
    | true =>
      simp only [hc, Option.some.injEq] at hfound
      subst hfound
      rcases List.mem_cons.mp ha with rfl | ha
      · exact absurd rfl hne
      · exact mem_cons_of_mem _ ha
    | false =>
      simp only [hc] at hfound
      rcases List.mem_cons.mp ha with rfl | ha
      · exact mem_cons_self
      · exact mem_cons_of_mem _ (ih hfound ha)

theorem count_amendFirst (hfound : l.find? p = some b) : (amendFirst p f l).countP q + (if q b then 1 else 0) =
      l.countP q + (if q (f b) then 1 else 0) := by
  induction l with
  | nil => cases hfound
  | cons c l ih =>
    simp only [amendFirst, find?_cons] at hfound ⊢
    cases hc : p c with
    | true =>
      simp only [hc, Option.some.injEq] at hfound
      subst hfound
      simp only [if_true, countP_cons]
      omega
    | false =>
      simp only [hc] at hfound
      have hrest := ih hfound
      simp only [Bool.false_eq_true, if_false, countP_cons]
      omega

end

theorem planWithin_congr {L : Library} (hc : changed.authorization_ceiling = run.authorization_ceiling)
    (hs : changed.configuration_snapshot = run.configuration_snapshot) :
    PlanWithin L changed plan ↔ PlanWithin L run plan := by
  cases plan <;> simp [PlanWithin, hc, hs]

theorem planAt_submitted (ha : Approved run a) :
    (run.submitted p).planAt a.plan_revision = run.planAt a.plan_revision := by
  obtain ⟨q, hq, hrevision, -⟩ := ha
  cases hfound : run.planAt a.plan_revision with
  | none =>
    simp only [Run.planAt, find?_eq_none, decide_eq_true_eq] at hfound
    exact absurd hrevision.symm (hfound q hq)
  | some r =>
    simp only [Run.planAt] at hfound
    simp [Run.planAt, Run.submitted, find?_append, hfound]

theorem Planned.frame {L : Library} (h : Planned L run p) (hterm : run.commander.term ≤ changed.commander.term)
    (hintents : ∀ intent ∈ run.planning_intents, intent.admitted = true → intent ∈ changed.planning_intents)
    (hc : changed.authorization_ceiling = run.authorization_ceiling)
    (hs : changed.configuration_snapshot = run.configuration_snapshot)
    (hbefore : changed.activeBefore p.plan_revision = run.activeBefore p.plan_revision) :
    Planned L changed p := by
  obtain ⟨intent, hin, hid, hprincipal, hiterm, hadmitted⟩ := h.intent
  exact ⟨h.term.trans hterm, ⟨intent, hintents intent hin hadmitted, hid, hprincipal, hiterm, hadmitted⟩,
    (planWithin_congr hc hs).mpr h.within, hbefore ▸ h.impact⟩

theorem count_supersede (l : List Handoff) : (l.map Handoff.supersede).countP (·.state = .pending) = 0 ∧
      (l.map Handoff.supersede).countP (·.state = .approved) = l.countP (·.state = .approved) := by
  constructor
  · simp only [countP_map, countP_eq_zero, Function.comp_apply, Handoff.supersede]
    intro handoff _
    split <;> simp_all
  · rw [countP_map]
    refine countP_congr fun handoff _ => ?_
    simp only [Function.comp_apply, Handoff.supersede]
    split <;> simp_all

section
variable (h : Lineage L.toLibrary run)
include h

theorem activeBefore_submitted : (run.submitted p).activeBefore revision = run.activeBefore revision := by
  simp only [Run.activeBefore]
  cases hlast : (run.approvals.filter (·.plan_revision < revision)).getLast? with
  | none => simp [Run.submitted, hlast]
  | some a =>
    have ha : a ∈ run.approvals := (List.mem_filter.mp (mem_of_getLast? hlast)).1
    simp only [Run.submitted, hlast, Option.bind_some]
    exact planAt_submitted (h.approvals a ha)

theorem Lineage.activeBefore_next : run.activeBefore (run.latest_plan_revision + 1) = run.activePlan := by
  have hall : run.approvals.filter (·.plan_revision < run.latest_plan_revision + 1) = run.approvals :=
    List.filter_eq_self.mpr fun a ha => by simpa [Nat.lt_succ_iff] using h.approval_bounds ha
  rw [h.activePlan, Run.activeBefore, hall]

section
variable (hfresh : run.active_plan_revision ≠ some run.latest_plan_revision)
include hfresh

theorem Lineage.approved_before (ha : a ∈ run.approvals) : a.plan_revision < run.latest_plan_revision := by
  refine Nat.lt_of_le_of_ne (h.approval_bounds ha) fun heq => hfresh ?_
  rw [h.active]
  obtain ⟨before, after, hsplit⟩ := append_of_mem ha
  cases after using reverseRecOn with
  | nil => simp [hsplit, heq]
  | append_singleton rest b =>
    have hb : b ∈ run.approvals := by simp [hsplit]
    have hless : a.plan_revision < b.plan_revision := by
      have hpairs := h.increasing
      rw [hsplit, map_append, pairwise_append] at hpairs
      exact (List.pairwise_cons.mp (map_cons .. ▸ hpairs.2.1)).1 _ (by simp)
    have hbound := h.approval_bounds hb
    omega

theorem Lineage.activeBefore_latest : run.activeBefore run.latest_plan_revision = run.activePlan := by
  have hall : run.approvals.filter (·.plan_revision < run.latest_plan_revision) = run.approvals :=
    List.filter_eq_self.mpr fun a ha => decide_eq_true (h.approved_before hfresh ha)
  rw [h.activePlan, Run.activeBefore, hall]

end

-- The laws are kept

theorem submitted_planned (hp : Submits L.toLibrary run p) : Planned L.toLibrary (run.submitted p) p where
  term := hp.current.le
  intent := hp.intent
  within := (planWithin_congr rfl rfl).mpr hp.within
  impact := by
    rw [activeBefore_submitted h, hp.revision, h.activeBefore_next]
    exact hp.impact

theorem activeBefore_approved (ha : Approves run a p) (hq : q ∈ run.plans) :
    (run.approved a p).activeBefore q.plan_revision = run.activeBefore q.plan_revision := by
  have hnot : ¬ a.plan_revision < q.plan_revision := by
    have hbound := (h.bounds hq).2
    have hlatest := ha.latest
    omega
  have hsame : (run.approvals ++ [a]).filter (·.plan_revision < q.plan_revision) =
      run.approvals.filter (·.plan_revision < q.plan_revision) := by
    simp [filter_append, hnot]
  simp only [Run.activeBefore, Run.approved, hsame]
  rfl

theorem Lineage.submitted (hp : Submits L.toLibrary run p) : Lineage L.toLibrary (run.submitted p) :=
  { h with
    revisions := by
      simp [Run.submitted, h.revisions, hp.revision, range'_concat, Nat.add_comm]
    plans := fun q hq => by
      rcases List.mem_append.mp hq with hq | hq
      · exact (h.plans q hq).frame (le_refl _) (fun _ hi _ => hi) rfl rfl (activeBefore_submitted h)
      · obtain rfl := List.mem_singleton.mp hq
        exact submitted_planned h hp
    approvals := fun a ha => by
      obtain ⟨q, hq, hrevision, hnames⟩ := h.approvals a ha
      exact ⟨q, mem_append_left _ hq, hrevision, hnames⟩ }

theorem Lineage.approved (ha : Approves run a p) : Lineage L.toLibrary (run.approved a p) :=
  { h with
    plans := fun q hq =>
      (h.plans q hq).frame (le_refl _) (fun _ hi _ => hi) rfl rfl (activeBefore_approved h ha hq)
    approvals := fun b hb => by
      rcases List.mem_append.mp hb with hb | hb
      · exact h.approvals b hb
      · obtain rfl := List.mem_singleton.mp hb
        exact ⟨p, mem_of_getLast? ha.last, ha.latest.trans (h.last ha.last).symm, ha.names⟩
    increasing := by
      have hfresh : run.active_plan_revision ≠ some run.latest_plan_revision := h.last ha.last ▸ ha.fresh
      simp only [Run.approved, map_append, pairwise_append, map_cons, map_nil,
        pairwise_singleton, mem_singleton, true_and, forall_eq]
      refine ⟨h.increasing, fun revision hr => ?_⟩
      obtain ⟨b, hb, rfl⟩ := List.mem_map.mp hr
      exact ha.latest ▸ h.approved_before hfresh hb
    active := by simp [Run.approved, ha.latest, h.last ha.last] }

theorem Lineage.proposed (hp : handoff.state = .pending) : Lineage L.toLibrary (run.proposed handoff) :=
  { h with
    plans := fun p hp => (h.plans p hp).frame (le_refl _) (fun _ hi _ => hi) rfl rfl rfl
    pending := by
      have hcount := (count_supersede run.handoffs).1
      simp [Run.proposed, ← countP_eq_length_filter, hcount, hp]
    term := by
      have hcount := (count_supersede run.handoffs).2
      have hterm := h.term
      simp [Run.proposed, ← countP_eq_length_filter, hcount, hp, hterm] }

theorem Lineage.decided
    (hfound : run.handoffs.find? (·.id = handoff.id) = some handoff) (hp : handoff.state = .pending) :
    Lineage L.toLibrary (run.decided handoff approve principal at_time) :=
  { h with
    plans := fun p hp => by
      refine (h.plans p hp).frame ?_ (fun _ hi _ => hi) rfl rfl rfl
      cases approve <;> simp [Run.decided]
    pending := by
      have hcount := count_amendFirst (q := fun x : Handoff => decide (x.state = .pending))
        (f := (·.decide approve principal at_time)) hfound
      have hone := h.pending
      rw [← countP_eq_length_filter] at hone ⊢
      have hnot : ((handoff.decide approve principal at_time).state = .pending) = False := by
        cases approve <;> simp [Handoff.decide]
      simp only [hp, hnot, decide_true, decide_false, if_true, Bool.false_eq_true, if_false] at hcount
      simp only [Run.decided]
      omega
    term := by
      have hcount := count_amendFirst (q := fun x : Handoff => decide (x.state = .approved))
        (f := (·.decide approve principal at_time)) hfound
      have hterm := h.term
      rw [← countP_eq_length_filter] at hterm ⊢
      have hnot : ¬ handoff.state = .approved := by simp [hp]
      cases approve with
      | true =>
        have hyes : (handoff.decide true principal at_time).state = .approved := rfl
        simp only [hnot, hyes, decide_true, decide_false, if_true, Bool.false_eq_true, if_false] at hcount
        simp only [Run.decided, if_true, hterm]
        omega
      | false =>
        have hno : ¬ (handoff.decide false principal at_time).state = .approved := by simp [Handoff.decide]
        simp only [hnot, hno, decide_false, Bool.false_eq_true, if_false] at hcount
        simp only [Run.decided, Bool.false_eq_true, if_false, hterm]
        omega }

theorem Lineage.attached (hfound : run.planning_intents.find? (·.id = intent.id) = some intent)
    (hawaiting : intent.receipt = none) : Lineage L.toLibrary (run.attach intent.id receipt) :=
  { h with
    plans := fun p hp => by
      refine (h.plans p hp).frame (le_refl _) (fun other hi hadmitted => ?_) rfl rfl rfl
      refine mem_amendFirst hfound hi fun heq => ?_
      -- the intent that the receipt is attached to was not admitted
      simp [heq, PlanningIntent.admitted, hawaiting] at hadmitted }

theorem Lineage.intended :
    Lineage L.toLibrary { run with planning_intents := run.planning_intents ++ [intent] } :=
  { h with
    plans := fun p hp => (h.plans p hp).frame (le_refl _) (fun _ hi _ => mem_append_left _ hi) rfl rfl rfl }

theorem Lineage.move (hm : Move L run changed) : Lineage L.toLibrary changed := by
  cases hm with
  | intent => exact h.intended
  | receipt found _ awaiting => exact h.attached found awaiting
  | plan submits => exact h.submitted submits
  | approval approves => exact h.approved approves
  | proposal pending => exact h.proposed pending
  | decision found pending => exact h.decided found pending

end

theorem Lineage.saved (h : Lineage L.toLibrary changed) : Lineage L.toLibrary (run.saved changed) :=
  { h with
    plans := fun p hp => (h.plans p hp).frame (le_refl _) (fun _ hi _ => hi) rfl rfl rfl }

end Karajan.Planner
