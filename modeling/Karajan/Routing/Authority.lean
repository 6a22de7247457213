import Karajan.Routing.Reports

/-!
# Tightening authority

A task and a policy are tighter than others when they allow less and ask for
more, and are the same in everything else. Whoever is eligible under the tighter
ones passes every check of the wider ones too.
-/

namespace Karajan.Routing

open List
open Capacity (Quantity reasonIf reasonIf_eq_nil)
open Check Listing

-- Tighter snapshots

structure HardConstraints.Tighter (c' c : HardConstraints) : Prop where
  profile_refs : c'.profile_refs ⊆ c.profile_refs
  channel_ids : c'.channel_ids ⊆ c.channel_ids
  tools : c'.tools ⊆ c.tools
  data_destinations : c'.data_destinations ⊆ c.data_destinations
  required_capabilities : c.required_capabilities ⊆ c'.required_capabilities

/-- A limit that is stated was stated before, and at least as high. -/
def LimitsTighter (limit' limit : String → Option Quantity) : Prop :=
  ∀ currency amount', limit' currency = some amount' →
    ∃ amount, limit currency = some amount ∧ amount'.units ≤ amount.units

structure Authorization.Tighter (a' a : Authorization) : Prop where
  constraints : a'.toHardConstraints.Tighter a.toHardConstraints
  ceiling_profile_refs : a'.ceiling_profile_refs ⊆ a.ceiling_profile_refs
  allowed_stages : a'.allowed_stages ⊆ a.allowed_stages
  approved_groups : ∀ group, (a'.approved_groups.get? group).getD [] ⊆ (a.approved_groups.get? group).getD []
  approved_quality_stage_indices :
    a'.approved_quality_stage_indices ⊆ a.approved_quality_stage_indices
  budget_ref : a'.budget_ref = a.budget_ref
  currency_limits : LimitsTighter a'.currency_limits.get? a.currency_limits.get?
  max_attempt_duration_seconds : a'.max_attempt_duration_seconds ≤ a.max_attempt_duration_seconds
  max_quality_repair_rounds : a'.max_quality_repair_rounds ≤ a.max_quality_repair_rounds

structure TaskSnapshot.Tighter (t' t : TaskSnapshot) : Prop where
  classification : t'.toTaskClassification = t.toTaskClassification
  required_capabilities : t.required_capabilities ⊆ t'.required_capabilities
  tools : t.tools ⊆ t'.tools
  context_tokens : t'.context_tokens = t.context_tokens
  reserved_output_tokens : t'.reserved_output_tokens = t.reserved_output_tokens
  duration_seconds : t'.duration_seconds = t.duration_seconds
  stage : t'.stage = t.stage
  quality_stage_index : t'.quality_stage_index = t.quality_stage_index
  failure_reason : t'.failure_reason = t.failure_reason
  previous_profile : t'.previous_profile = t.previous_profile
  quality_repair_rounds_used : t'.quality_repair_rounds_used = t.quality_repair_rounds_used
  planned_attempt_id : t'.planned_attempt_id = t.planned_attempt_id
  planned_context_id : t'.planned_context_id = t.planned_context_id
  authorization : t'.authorization.Tighter t.authorization

structure Rulebook.Tighter (doc' doc : Rulebook) : Prop where
  max_quality_repair_rounds : doc'.max_quality_repair_rounds ≤ doc.max_quality_repair_rounds
  profile_groups : doc'.profile_groups = doc.profile_groups
  resource_policy : doc'.resource_policy = doc.resource_policy
  rules : doc'.rules = doc.rules

structure Budget.Tighter (b' b : Budget) : Prop where
  id : b'.id = b.id
  scope : b'.scope = b.scope
  currency_limits : LimitsTighter (fun currency => (b'.currency_limits.get? currency).join)
    fun currency => (b.currency_limits.get? currency).join

structure ResourceCatalog.Tighter (r' r : ResourceCatalog) : Prop where
  accounts : r'.accounts = r.accounts
  channels : r'.channels = r.channels
  profiles : r'.profiles = r.profiles
  quota_pools : r'.quota_pools = r.quota_pools
  budgets : List.Forall₂ Budget.Tighter r'.budgets r.budgets

structure PolicySnapshot.Tighter (p' p : PolicySnapshot) : Prop where
  rulebook : p'.rulebook.Tighter p.rulebook
  resources : p'.resources.Tighter p.resources
  approved_profile_refs : p'.approved_profile_refs ⊆ p.approved_profile_refs
  profile_facts : p'.profile_facts = p.profile_facts
  risk_policy : p'.risk_policy = p.risk_policy
  constraints : p'.constraints.Tighter p.constraints

variable {task task' : TaskSnapshot} {policy policy' : PolicySnapshot} {capacity : CapacitySnapshot}
  {doc doc' : Rulebook}

-- Single facts

theorem Rulebook.Tighter.group (h : doc'.Tighter doc) : doc'.group = doc.group := by
  funext name
  simp [Rulebook.group, h.profile_groups]

theorem Rulebook.Tighter.checked (h : doc'.Tighter doc) : checkRulebook doc' = checkRulebook doc := by
  have hrule : checkRule doc' = checkRule doc := by
    funext rule
    simp only [checkRule, h.profile_groups, h.group]
  simp only [checkRulebook, hrule, h.rules, h.profile_groups, h.resource_policy]

theorem budget_ids (h : List.Forall₂ Budget.Tighter budgets' budgets) :
    budgets'.map Budget.id = budgets.map Budget.id := by
  induction h with
  | nil => rfl
  | cons hb _ ih => simp [hb.id, ih]

theorem bound_tighter (hp : policy'.Tighter policy) (key : ProfileRef) :
    policy'.resources.bound? key = policy.resources.bound? key := by
  simp only [ResourceCatalog.bound?, hp.resources.profiles]

theorem facts_tighter (hp : policy'.Tighter policy) (key : ProfileRef) :
    policy'.facts? key = policy.facts? key := by
  simp only [PolicySnapshot.facts?, hp.profile_facts]

theorem capabilityReasons_wider (hsub : wide ⊆ tight)
    (h : capabilityReasons tight registered profile profile_hash = []) :
    capabilityReasons wide registered profile profile_hash = [] := by
  simp only [capabilityReasons, flatMap_eq_nil_iff] at h ⊢
  exact fun capability hc => h capability (hsub hc)

section
variable (ht : task'.Tighter task)
include ht

theorem stageGroups_tighter : stageGroups task' rule = stageGroups task rule := by
  simp only [stageGroups, ht.stage, ht.quality_stage_index]

theorem constraintReasons_wider (hc : c'.Tighter c) (h : constraintReasons task' profile c' = []) :
    constraintReasons task profile c = [] := by
  simp only [constraintReasons, append_eq_nil_iff, reasonIf_eq_nil, decide_eq_false_iff_not,
    not_not, Bool.not_eq_false', all_eq_true, mem_append, decide_eq_true_eq] at h ⊢
  obtain ⟨hchannel, htools⟩ := h
  exact ⟨hc.channel_ids hchannel, fun tool htool => hc.tools (htools tool (htool.imp_left (ht.tools ·)))⟩

theorem reviewReasons_tighter :
    reviewReasons task' rule effective registered = reviewReasons task rule effective registered := by
  have hauthor : authorReasons task' rule effective registered =
      authorReasons task rule effective registered := by
    funext author
    simp only [authorReasons, ht.planned_attempt_id, ht.planned_context_id]
  simp only [reviewReasons, hauthor, ht.classification]

theorem leadAccess_tighter : leadAccess task' rule = leadAccess task rule := by
  simp only [leadAccess, ht.classification]

theorem accountReasons_wider (h : accountReasons account account_id task' = []) :
    accountReasons account account_id task = [] := by
  simp only [accountReasons, append_eq_nil_iff, reasonIf_eq_nil, decide_eq_false_iff_not,
    not_lt, le_min_iff, ht.duration_seconds] at h ⊢
  obtain ⟨hpolicy, haccount, hauthorized⟩ := h
  exact ⟨hpolicy, haccount, hauthorized.trans ht.authorization.max_attempt_duration_seconds⟩

end

theorem find_budget (h : List.Forall₂ Budget.Tighter budgets' budgets) (name : String) :
    Option.Rel Budget.Tighter (budgets'.find? (·.id = name)) (budgets.find? (·.id = name)) := by
  induction h with
  | nil => exact .none
  | @cons b' b _ _ hb _ ih =>
    by_cases hname : b.id = name
    · simpa [find?_cons, hb.id, hname] using Option.Rel.some hb
    · simpa [find?_cons, hb.id, hname] using ih

def Covers (bound : Option Quantity) (upper : Quantity) : Prop :=
  ∃ amount, bound = some amount ∧ upper.units ≤ amount.units

theorem LimitsTighter.covers (h : LimitsTighter limit' limit) (hc : Covers (limit' currency) upper) :
    Covers (limit currency) upper := by
  obtain ⟨amount', hstated, hupper⟩ := hc
  obtain ⟨amount, hamount, hle⟩ := h currency amount' hstated
  exact ⟨amount, hamount, hupper.trans hle⟩

theorem budgetReasons_eq_nil : budgetReasons task policy capacity profile currency upper = [] ↔
    ∃ budget, budget? task policy = some budget ∧
      ∀ bound ∈ cashBounds task capacity profile budget currency, Covers bound upper := by
  unfold budgetReasons
  cases budget? task policy with
  | none => simp
  | some budget =>
    simp only [Option.some.injEq, exists_eq_left']
    split
    case isTrue hmissing =>
      obtain ⟨bound, hbound, hnone⟩ := List.any_eq_true.mp hmissing
      constructor
      · intro h
        cases h
      · intro h
        obtain ⟨amount, rfl, -⟩ := h bound hbound
        simp at hnone
    case isFalse hstated =>
      simp only [any_eq_true, not_exists, not_and, Bool.not_eq_true, Option.isNone_eq_false_iff,
        reasonIf_eq_nil, any_eq_false] at hstated ⊢
      refine forall_congr' fun bound => forall_congr' fun hbound => ?_
      obtain ⟨amount, rfl⟩ := Option.isSome_iff_exists.mp (hstated bound hbound)
      simp [Covers]

section
variable (ht : task'.Tighter task) (hp : policy'.Tighter policy)
include ht hp

-- Validity

theorem validate_tighter (capacity : Option CapacitySnapshot) :
    validate L task' policy' capacity = validate L task policy capacity := by
  have hresources : validateResources policy' = validateResources policy := by
    simp only [validateResources, unique, hp.resources.accounts, hp.resources.channels,
      hp.resources.quota_pools, budget_ids hp.resources.budgets, hp.resources.profiles, hp.profile_facts]
  simp only [validate, hresources, hp.resources.profiles, ht.classification, hp.risk_policy]

theorem Valid.wider (h : Valid L task' policy' capacity) : Valid L task policy capacity :=
  ⟨hp.rulebook.checked ▸ h.compiled, validate_tighter ht hp capacity ▸ h.validated⟩

-- Stages

theorem selectCompiledRule_tighter :
    selectCompiledRule L task'.toTaskClassification policy'.rulebook policy'.risk_policy =
      selectCompiledRule L task.toTaskClassification policy.rulebook policy.risk_policy := by
  simp only [selectCompiledRule, ht.classification, hp.risk_policy, hp.rulebook.rules]

theorem qualityRefusal_wider (h : qualityRefusal task' policy'.rulebook previous = none) :
    qualityRefusal task policy.rulebook previous = none := by
  simp only [qualityRefusal, ite_not] at h ⊢
  split at h
  case isFalse => cases h
  case isTrue hprevious =>
    split at h
    case isTrue => cases h
    case isFalse hrounds =>
      split at h
      case isFalse => cases h
      case isTrue hindex =>
        split at h
        case isTrue => cases h
        case isFalse hreached =>
          have hlimit : ¬ min task.authorization.max_quality_repair_rounds
              policy.rulebook.max_quality_repair_rounds ≤ task.quality_repair_rounds_used := by
            have hown := ht.authorization.max_quality_repair_rounds
            have hdoc := hp.rulebook.max_quality_repair_rounds
            have hused := ht.quality_repair_rounds_used
            omega
          rw [ht.quality_stage_index] at hindex hreached
          rw [ht.quality_repair_rounds_used] at hreached
          rw [if_pos (ht.authorization.constraints.profile_refs hprevious), if_neg hlimit,
            if_pos (ht.authorization.approved_quality_stage_indices hindex), if_neg hreached]

theorem stageRefusal_wider
    (h : stageRefusal task' policy'.rulebook = none) : stageRefusal task policy.rulebook = none := by
  simp only [stageRefusal, ite_not, ht.stage, ht.failure_reason, ht.previous_profile] at h ⊢
  split at h
  case isFalse => cases h
  case isTrue hstage =>
    rw [if_pos (ht.authorization.allowed_stages hstage)]
    cases hs : task.stage with
    | normal => rfl
    | quality =>
      simp only [hs] at h ⊢
      split at h
      case isFalse => cases h
      case isTrue hfailed =>
        rw [if_pos hfailed]
        cases hprevious : task.previous_profile with
        | none => simp [hprevious] at h
        | some previous =>
          simp only [hprevious] at h ⊢
          exact qualityRefusal_wider ht hp h

theorem Opens.wider (h : Opens L task' policy' effective rule) : Opens L task policy effective rule := by
  have hselection := selectCompiledRule_tighter (L := L) ht hp
  exact ⟨hselection ▸ h.clear, hselection ▸ h.at_class, hselection ▸ h.by_rule,
    stageRefusal_wider ht hp h.open_stage⟩

theorem stageRefs_tighter : stageRefs task' policy' rule = stageRefs task policy rule := by
  simp only [stageRefs, stageGroups_tighter ht, hp.rulebook.group]

-- The static checks

theorem required_tighter : required task policy rule effective ⊆ required task' policy' rule effective := by
  have hrole : roleCapabilities task' effective = roleCapabilities task effective := by
    simp only [roleCapabilities, ht.classification]
  intro capability
  simp only [required, mem_sortedSet, mem_append, hrole]
  rintro ((((h | h) | h) | h) | h)
  · exact .inl (.inl (.inl (.inl (ht.required_capabilities h))))
  · exact .inl (.inl (.inl (.inr (hp.constraints.required_capabilities h))))
  · exact .inl (.inl (.inr (ht.authorization.constraints.required_capabilities h)))
  · exact .inl (.inr h)
  · exact .inr h

theorem approvalReasons_wider
    (h : approvalReasons key task' policy' = []) : approvalReasons key task policy = [] := by
  simp only [approvalReasons, append_eq_nil_iff, reasonIf_eq_nil, decide_eq_false_iff_not, not_not] at h ⊢
  obtain ⟨⟨⟨hproject, hconstraint⟩, hrun⟩, hceiling⟩ := h
  exact ⟨⟨⟨hp.approved_profile_refs hproject, hp.constraints.profile_refs hconstraint⟩,
    ht.authorization.constraints.profile_refs hrun⟩, ht.authorization.ceiling_profile_refs hceiling⟩

theorem qualificationReasons_wider
    (h : qualificationReasons task' policy' as_of profile profile_hash facts = []) :
    qualificationReasons task policy as_of profile profile_hash facts = [] := by
  simp only [qualificationReasons, append_eq_nil_iff, reasonIf_eq_nil, ht.classification,
    ht.context_tokens, ht.reserved_output_tokens, Bool.not_eq_false', all_eq_true,
    decide_eq_true_eq, any_eq_false, mem_cons, not_mem_nil, or_false,
    decide_eq_true_eq, not_not, forall_eq_or_imp, forall_eq] at h ⊢
  obtain ⟨⟨⟨⟨hcurrent, hrole⟩, htools⟩, hcontext⟩, hproject, hrun⟩ := h
  exact ⟨⟨⟨⟨hcurrent, hrole⟩, fun tool htool => htools tool (ht.tools htool)⟩, hcontext⟩,
    hp.constraints.data_destinations hproject,
    ht.authorization.constraints.data_destinations hrun⟩

theorem factsReasons_wider (h : factsReasons task' policy' as_of key profile profile_hash = []) :
    factsReasons task policy as_of key profile profile_hash = [] := by
  unfold factsReasons at h ⊢
  rw [facts_tighter hp] at h
  cases hf : policy.facts? key with
  | none => simp [hf] at h
  | some facts =>
    simp only [hf] at h ⊢
    exact qualificationReasons_wider ht hp h

theorem boundReasons_wider (h : boundReasons L key task' policy' as_of rule effective registered profile = []) :
    boundReasons L key task policy as_of rule effective registered profile = [] := by
  have hchannel : channelReasons policy'.resources profile = channelReasons policy.resources profile := by
    simp only [channelReasons, hp.resources.channels, hp.resources.accounts]
  simp only [boundReasons, append_eq_nil_iff, hchannel, reviewReasons_tighter ht] at h ⊢
  obtain ⟨⟨⟨⟨⟨⟨hbinding, hchannel⟩, hproject⟩, hrun⟩, hfacts⟩, hcapability⟩, hreview⟩ := h
  exact ⟨⟨⟨⟨⟨⟨hbinding, hchannel⟩, constraintReasons_wider ht hp.constraints hproject⟩,
    constraintReasons_wider ht ht.authorization.constraints hrun⟩, factsReasons_wider ht hp hfacts⟩,
    capabilityReasons_wider (required_tighter ht hp) hcapability⟩, hreview⟩

theorem groupApproved_wider (h : groupApproved key task' policy'.rulebook groups = true) :
    groupApproved key task policy.rulebook groups = true := by
  simp only [groupApproved, hp.rulebook.group, any_eq_true, Bool.and_eq_true, decide_eq_true_eq] at h ⊢
  obtain ⟨group, hgroup, happroved, hmember⟩ := h
  exact ⟨group, hgroup, ht.authorization.approved_groups group happroved, hmember⟩

theorem staticReasons_wider
    (h : staticReasons L task' policy' policy'.rulebook as_of rule effective groups key = []) :
    staticReasons L task policy policy.rulebook as_of rule effective groups key = [] := by
  simp only [staticReasons, bound_tighter hp, append_eq_nil_iff, reasonIf_eq_nil, Bool.not_eq_false'] at h ⊢
  obtain ⟨⟨happroval, hbound⟩, hgroup⟩ := h
  refine ⟨⟨approvalReasons_wider ht hp happroval, ?_⟩, groupApproved_wider ht hp hgroup⟩
  cases hb : policy.resources.bound? key with
  | none => simp [hb] at hbound
  | some bound =>
    simp only [hb] at hbound ⊢
    exact boundReasons_wider ht hp hbound

-- The checks against the capacity

theorem checkPool_tighter : checkPool task' policy' capacity account account_id estimate lead revalidate =
      checkPool task policy capacity account account_id estimate lead revalidate := by
  funext pool_id
  simp only [checkPool, poolBound, PolicySnapshot.quotaPool?, quotaReasons, unknownReasons,
    hp.resources.quota_pools, ht.duration_seconds]

theorem resourceReasons_wider (h : resourceReasons task' policy' capacity rule revalidate key = []) :
    resourceReasons task policy capacity rule revalidate key = [] := by
  unfold resourceReasons at h ⊢
  rw [bound_tighter hp] at h
  cases hb : policy.resources.bound? key with
  | none => rfl
  | some bound =>
    obtain ⟨registered, profile⟩ := bound
    simp only [hb, leadAccess_tighter ht] at h ⊢
    cases ha : capacity.account? profile.binding.account_id with
    | none => simp [ha] at h
    | some account =>
      simp only [ha, append_eq_nil_iff, poolReasons, checkPool_tighter ht hp] at h ⊢
      obtain ⟨⟨haccount, hlive⟩, hpools⟩ := h
      exact ⟨⟨accountReasons_wider ht haccount, hlive⟩, hpools⟩

-- Cash

theorem budget_wider (h : budget? task' policy' = some budget') :
    ∃ budget, budget? task policy = some budget ∧ budget'.Tighter budget := by
  have hplanning : planningBudget task' = planningBudget task := by
    simp only [planningBudget, ht.classification]
  have hconfigured : configuredBudget task' policy' = configuredBudget task policy := by
    simp only [configuredBudget, hplanning, hp.rulebook.resource_policy]
  simp only [budget?, ht.authorization.budget_ref, hplanning, hconfigured, Option.filter_eq_some_iff] at h ⊢
  obtain ⟨hfind, hauthorized⟩ := h
  have hrel := find_budget hp.resources.budgets task.authorization.budget_ref
  rw [hfind] at hrel
  cases hwide : policy.resources.budgets.find? (·.id = task.authorization.budget_ref) with
  | none => simp [hwide] at hrel
  | some budget =>
    rw [hwide, Option.rel_some_some] at hrel
    exact ⟨budget, ⟨rfl, hrel.scope ▸ hauthorized⟩, hrel⟩

theorem budgetReasons_wider (h : budgetReasons task' policy' capacity profile currency upper = []) :
    budgetReasons task policy capacity profile currency upper = [] := by
  obtain ⟨budget', hbudget', hcovers⟩ := budgetReasons_eq_nil.mp h
  obtain ⟨budget, hbudget, htighter⟩ := budget_wider ht hp hbudget'
  refine budgetReasons_eq_nil.mpr ⟨budget, hbudget, ?_⟩
  simp only [cashBounds, ht.authorization.budget_ref, mem_cons, not_mem_nil, or_false,
    forall_eq_or_imp, forall_eq] at hcovers ⊢
  obtain ⟨hrun, hstated, hbudget_left, haccount⟩ := hcovers
  exact ⟨ht.authorization.currency_limits.covers hrun, htighter.currency_limits.covers hstated,
    hbudget_left, haccount⟩

theorem cashReasons_wider (h : cashReasons task' policy' capacity profile profile_hash price = []) :
    cashReasons task policy capacity profile profile_hash price = [] := by
  unfold cashReasons at h ⊢
  cases hb : price.bound? with
  | none => simp [hb] at h
  | some upper =>
    simp only [hb, append_eq_nil_iff] at h ⊢
    obtain ⟨hprice, hestimate, hbudget⟩ := h
    exact ⟨hprice, hestimate, budgetReasons_wider ht hp hbudget⟩

theorem paymentReasons_wider (h : paymentReasons L task' policy' capacity key = []) :
    paymentReasons L task policy capacity key = [] := by
  unfold paymentReasons at h ⊢
  rw [bound_tighter hp] at h
  cases hb : policy.resources.bound? key with
  | none => rfl
  | some bound =>
    simp only [hb, facts_tighter hp] at h ⊢
    split at h
    case isTrue hsubscription => rw [if_pos hsubscription]
    case isFalse hcash =>
      rw [if_neg hcash]
      simp only [append_eq_nil_iff] at h ⊢
      obtain ⟨hbounded, hprice⟩ := h
      refine ⟨hbounded, ?_⟩
      cases hp' : (capacity.estimate? key).bind Estimate.price with
      | none => simp [hp'] at hprice
      | some price =>
        simp only [hp'] at hprice ⊢
        exact cashReasons_wider ht hp hprice

-- Routes

theorem Allowed.wider (h : Allowed L task' policy' capacity revalidate p) :
    Allowed L task policy capacity revalidate p := by
  obtain ⟨effective, rule, ho, hmember, hnone⟩ := h
  simp only [candidateReasons, append_eq_nil_iff, stageGroups_tighter ht] at hnone
  obtain ⟨⟨hstatic, hresource⟩, hpayment⟩ := hnone
  refine ⟨effective, rule, ho.wider ht hp, stageRefs_tighter ht hp ▸ hmember, ?_⟩
  simp only [candidateReasons, append_eq_nil_iff]
  exact ⟨⟨staticReasons_wider ht hp hstatic, resourceReasons_wider ht hp hresource⟩,
    paymentReasons_wider ht hp hpayment⟩

end

/-- Tightening authority makes no profile eligible: where the route of the tighter snapshots
can be evaluated, that of the wider ones can be, and whoever is eligible in the one is eligible
in the other. -/
theorem authority_monotone (ht : task'.Tighter task) (hp : policy'.Tighter policy)
    (h : evaluateRoute L task' policy' capacity = .ok report') :
    ∃ report, evaluateRoute L task policy capacity = .ok report ∧
      ∀ p, report'.Eligible p → report.Eligible p := by
  have hvalid := (evaluate_ok.mp h).1.wider ht hp
  have hroute : evaluateRoute L task policy capacity = .ok _ := evaluate_ok.mpr ⟨hvalid, rfl⟩
  refine ⟨_, hroute, fun p he => ?_⟩
  exact (route_eligible hroute).mpr (((route_eligible h).mp he).wider ht hp)

def Sample.narrowed : TaskSnapshot :=
  { Sample.task with authorization :=
    { Sample.authorization with ceiling_profile_refs := [⟨"p", 1⟩] } }

theorem HardConstraints.Tighter.refl (c : HardConstraints) : c.Tighter c :=
  ⟨fun _ h => h, fun _ h => h, fun _ h => h, fun _ h => h, fun _ h => h⟩

theorem PolicySnapshot.Tighter.refl (p : PolicySnapshot) : p.Tighter p where
  rulebook := ⟨le_rfl, rfl, rfl, rfl⟩
  resources := ⟨rfl, rfl, rfl, rfl,
    List.forall₂_same.mpr fun _ _ => ⟨rfl, rfl, fun _ amount h => ⟨amount, h, le_rfl⟩⟩⟩
  approved_profile_refs := fun _ h => h
  profile_facts := rfl
  risk_policy := rfl
  constraints := .refl _

theorem Sample.narrowed_tighter : Sample.narrowed.Tighter Sample.task := by
  refine ⟨rfl, fun _ h => h, fun _ h => h, rfl, rfl, rfl, rfl, rfl, rfl, rfl, rfl, rfl, rfl, ?_⟩
  exact
    { constraints := .refl _
      ceiling_profile_refs := List.cons_subset.mpr ⟨.tail _ (.head _), nil_subset _⟩
      allowed_stages := fun _ h => h
      approved_groups := fun _ _ h => h
      approved_quality_stage_indices := fun _ h => h
      budget_ref := rfl
      currency_limits := fun _ amount h => ⟨amount, h, le_rfl⟩
      max_attempt_duration_seconds := le_rfl
      max_quality_repair_rounds := le_rfl }

/-- A profile is eligible under a narrowed ceiling, and without. -/
theorem authority_monotone_sample : ∃ report' report,
    evaluateRoute Sample.library Sample.narrowed Sample.policy Sample.capacity = .ok report' ∧
    evaluateRoute Sample.library Sample.task Sample.policy Sample.capacity = .ok report ∧
    report'.Eligible ⟨"p", 1⟩ ∧ report.Eligible ⟨"p", 1⟩ := by
  obtain ⟨report', hroute', hp⟩ := Sample.finds_eligible
    (show Sample.finds Sample.narrowed ⟨"p", 1⟩ = true by decide +kernel)
  obtain ⟨report, hroute, hwider⟩ := authority_monotone Sample.narrowed_tighter (.refl Sample.policy) hroute'
  exact ⟨report', report, hroute', hroute, hp, hwider _ hp⟩

end Karajan.Routing
