import Karajan.Routing.Reports

/-!
# Listing the same snapshots in another order

The lists of the snapshots stand for sets, or for what is looked up in them by a
name. Snapshots that list the same things in another order are told apart by no
route: every lookup finds the same, as no name is given twice in snapshots that
are valid, and what stands against a candidate is put in order at the end.
-/

namespace Karajan.Routing

open List Dict
open Capacity (Purpose Quantity reasonIf reasonIf_eq_nil)
open Check Listing

-- The same snapshots

structure Work.Relisted (w w' : Work) : Prop where
  complexity : w.complexity = w'.complexity
  risk : w.risk = w'.risk
  paths : w.paths.Perm w'.paths

structure Author.Relisted (a a' : Author) : Prop where
  work : a.toWork.Relisted a'.toWork
  model_family : a.model_family = a'.model_family
  attempt_id : a.attempt_id = a'.attempt_id
  context_id : a.context_id = a'.context_id

structure TaskClassification.Relisted (t t' : TaskClassification) : Prop where
  work : t.toWork.Relisted t'.toWork
  role : t.role = t'.role
  purpose : t.purpose = t'.purpose
  readiness : t.readiness = t'.readiness
  domains : t.domains.Perm t'.domains
  authors : Listing.Relisted Author.Relisted t.authors t'.authors

structure HardConstraints.Relisted (c c' : HardConstraints) : Prop where
  profile_refs : c.profile_refs.Perm c'.profile_refs
  channel_ids : c.channel_ids.Perm c'.channel_ids
  tools : c.tools.Perm c'.tools
  data_destinations : c.data_destinations.Perm c'.data_destinations
  required_capabilities : c.required_capabilities.Perm c'.required_capabilities

def GroupsRelisted (groups groups' : Dict String (List ProfileRef)) : Prop :=
  ∀ name, Option.Rel List.Perm (groups.get? name) (groups'.get? name)

structure Authorization.Relisted (a a' : Authorization) : Prop where
  constraints : a.toHardConstraints.Relisted a'.toHardConstraints
  ceiling_profile_refs : a.ceiling_profile_refs.Perm a'.ceiling_profile_refs
  allowed_stages : a.allowed_stages.Perm a'.allowed_stages
  approved_groups : GroupsRelisted a.approved_groups a'.approved_groups
  approved_quality_stage_indices :
    a.approved_quality_stage_indices.Perm a'.approved_quality_stage_indices
  budget_ref : a.budget_ref = a'.budget_ref
  currency_limits : a.currency_limits = a'.currency_limits
  max_attempt_duration_seconds : a.max_attempt_duration_seconds = a'.max_attempt_duration_seconds
  max_quality_repair_rounds : a.max_quality_repair_rounds = a'.max_quality_repair_rounds

structure TaskSnapshot.Relisted (t t' : TaskSnapshot) : Prop where
  classification : t.toTaskClassification.Relisted t'.toTaskClassification
  required_capabilities : t.required_capabilities.Perm t'.required_capabilities
  tools : t.tools.Perm t'.tools
  context_tokens : t.context_tokens = t'.context_tokens
  reserved_output_tokens : t.reserved_output_tokens = t'.reserved_output_tokens
  duration_seconds : t.duration_seconds = t'.duration_seconds
  stage : t.stage = t'.stage
  quality_stage_index : t.quality_stage_index = t'.quality_stage_index
  failure_reason : t.failure_reason = t'.failure_reason
  previous_profile : t.previous_profile = t'.previous_profile
  quality_repair_rounds_used : t.quality_repair_rounds_used = t'.quality_repair_rounds_used
  planned_attempt_id : t.planned_attempt_id = t'.planned_attempt_id
  planned_context_id : t.planned_context_id = t'.planned_context_id
  authorization : t.authorization.Relisted t'.authorization

structure RiskPolicy.Relisted (r r' : RiskPolicy) : Prop where
  mapping : r.mapping = r'.mapping
  path_floors : r.path_floors.Perm r'.path_floors

structure Rulebook.Relisted (doc doc' : Rulebook) : Prop where
  max_quality_repair_rounds : doc.max_quality_repair_rounds = doc'.max_quality_repair_rounds
  profile_groups : GroupsRelisted doc.profile_groups doc'.profile_groups
  resource_policy : doc.resource_policy = doc'.resource_policy
  rules : doc.rules.Perm doc'.rules

structure ResourceCatalog.Relisted (r r' : ResourceCatalog) : Prop where
  accounts : r.accounts.Perm r'.accounts
  channels : r.channels.Perm r'.channels
  profiles : r.profiles.Perm r'.profiles
  quota_pools : r.quota_pools.Perm r'.quota_pools
  budgets : r.budgets.Perm r'.budgets

structure PolicySnapshot.Relisted (p p' : PolicySnapshot) : Prop where
  rulebook : p.rulebook.Relisted p'.rulebook
  resources : p.resources.Relisted p'.resources
  approved_profile_refs : p.approved_profile_refs.Perm p'.approved_profile_refs
  profile_facts : p.profile_facts.Perm p'.profile_facts
  risk_policy : p.risk_policy.Relisted p'.risk_policy
  constraints : p.constraints.Relisted p'.constraints

structure Estimate.Relisted (e e' : Estimate) : Prop where
  profile : e.profile = e'.profile
  demand : e.demand.Perm e'.demand
  confidence : e.confidence = e'.confidence
  completion_seconds : e.completion_seconds = e'.completion_seconds
  price : e.price = e'.price

structure CapacitySnapshot.Relisted (c c' : CapacitySnapshot) : Prop where
  as_of : c.as_of = c'.as_of
  accounts : c.accounts.Perm c'.accounts
  pools : c.pools.Perm c'.pools
  estimates : Listing.Relisted Estimate.Relisted c.estimates c'.estimates
  budget_remaining : c.budget_remaining = c'.budget_remaining
  fx : c.fx = c'.fx

variable {task task' : TaskSnapshot} {policy policy' : PolicySnapshot}
  {capacity capacity' : CapacitySnapshot} {doc doc' : Rulebook} {risks risks' : RiskPolicy}
  {work work' : Work}

-- Groups

theorem GroupsRelisted.getD (h : GroupsRelisted groups groups') (name : String) :
    ((groups.get? name).getD []).Perm ((groups'.get? name).getD []) := by
  have hname := h name
  cases hg : groups.get? name with
  | none =>
    cases hg' : groups'.get? name with
    | none => simp
    | some _ => simp [hg, hg'] at hname
  | some _ =>
    cases hg' : groups'.get? name with
    | none => simp [hg, hg'] at hname
    | some _ => simpa [hg, hg'] using hname

theorem Rulebook.Relisted.group (h : doc.Relisted doc') (name : String) :
    (doc.group name).Perm (doc'.group name) := h.profile_groups.getD name

theorem GroupsRelisted.contains (h : GroupsRelisted groups groups') (name : String) :
    groups.contains name = groups'.contains name := by
  have hname := h name
  unfold Dict.contains
  cases hg : groups.get? name <;> cases hg' : groups'.get? name <;> simp_all

theorem GroupsRelisted.nodup (h : GroupsRelisted groups groups') (hn : ∀ refs ∈ groups.values, refs.Nodup) :
    ∀ refs ∈ groups'.values, refs.Nodup := by
  intro refs hrefs
  obtain ⟨name, hname⟩ := Dict.mem_values.mp hrefs
  have hrel := h name
  cases hg : groups.get? name with
  | none => simp [hg, hname] at hrel
  | some refs' =>
    rw [hg, hname, Option.rel_some_some] at hrel
    exact hrel.nodup_iff.mp (hn refs' (Dict.mem_values.mpr ⟨name, hg⟩))

theorem mem_groups (h : doc.Relisted doc') {groups : List String} :
    key ∈ groups.flatMap doc.group ↔ key ∈ groups.flatMap doc'.group := by
  simp only [mem_flatMap, (h.group _).mem_iff]

-- Classes

theorem Work.Relisted.symm (h : work.Relisted work') : work'.Relisted work :=
  ⟨h.complexity.symm, h.risk.symm, h.paths.symm⟩

theorem RiskPolicy.Relisted.symm (h : risks.Relisted risks') : risks'.Relisted risks :=
  ⟨h.mapping.symm, h.path_floors.symm⟩

theorem Author.Relisted.symm {a a' : Author} (h : a.Relisted a') : a'.Relisted a :=
  ⟨h.work.symm, h.model_family.symm, h.attempt_id.symm, h.context_id.symm⟩

variable {t t' : TaskClassification}

theorem TaskClassification.Relisted.symm (h : t.Relisted t') : t'.Relisted t :=
  ⟨h.work.symm, h.role.symm, h.purpose.symm, h.readiness.symm, h.domains.symm,
    h.authors.symm.imp fun _ _ h => h.symm⟩

theorem Class.max_perm (h : others.Perm others') (first : Class) : first.max others = first.max others' := by
  have hcomm : RightCommutative fun c d : Class => if c.level < d.level then d else c :=
    ⟨fun a b c => by cases a <;> cases b <;> cases c <;> rfl⟩
  exact h.foldl_eq first

open Relisted (of_perm)

theorem pathFloors_relisted (h : risks.Relisted risks') (hok : pathFloors L risks value = .ok found) :
    ∃ found', pathFloors L risks' value = .ok found' ∧ found.Perm found' := by
  simp only [pathFloors, bind_ok, pure_ok] at hok ⊢
  obtain ⟨path, hpath, found, heach, rfl⟩ := hok
  obtain ⟨found', heach', hrel⟩ := (of_perm h.path_floors).each
    (fun floor floor' c heq hc => ⟨c, heq ▸ hc, rfl⟩) heach
  refine ⟨_, ⟨path, hpath, found', heach', rfl⟩, ?_⟩
  obtain ⟨m, hm, heq⟩ := hrel
  rw [forall₂_eq_eq_eq] at heq
  subst heq
  exact hm.filterMap id

theorem floor_relisted (hr : risks.Relisted risks') (hw : work.Relisted work')
    (h : floor L risks work = .ok c) : floor L risks' work' = .ok c := by
  simp only [floor, bind_ok, pure_ok, need_ok] at h ⊢
  obtain ⟨risk, hrisk, found, heach, rfl⟩ := h
  obtain ⟨found', heach', hrel⟩ := (of_perm hw.paths).each
    (fun value value' c heq hc => by
      subst heq
      exact pathFloors_relisted hr hc) heach
  refine ⟨risk, hr.mapping ▸ hw.risk ▸ hrisk, found', heach', ?_⟩
  rw [hw.complexity, Class.max_perm (hrel.flatten.cons risk)]

theorem reviewedClasses_relisted (hr : risks.Relisted risks')
    (ht : t.Relisted t') (h : reviewedClasses L t risks = .ok others) :
    ∃ others', reviewedClasses L t' risks' = .ok others' ∧ others.Perm others' := by
  unfold reviewedClasses at h ⊢
  rw [← ht.role]
  split at h
  case isFalse hrole => exact ⟨others, by rw [if_neg hrole, h], .refl _⟩
  case isTrue hrole =>
    rw [if_pos hrole]
    obtain ⟨others', hothers', m, hm, heq⟩ := ht.authors.each
      (fun a a' c ha hc => ⟨c, floor_relisted hr ha.work hc, rfl⟩) h
    rw [forall₂_eq_eq_eq] at heq
    exact ⟨others', hothers', heq ▸ hm⟩

theorem effectiveClass_relisted (hr : risks.Relisted risks')
    (ht : t.Relisted t') (h : effectiveClass L t risks = .ok c) : effectiveClass L t' risks' = .ok c := by
  simp only [effectiveClass, bind_ok, pure_ok] at h ⊢
  obtain ⟨first, hfirst, others, hothers, rfl⟩ := h
  obtain ⟨others', hothers', hperm⟩ := reviewedClasses_relisted hr ht hothers
  exact ⟨first, floor_relisted hr ht.work hfirst, others', hothers', Class.max_perm hperm.symm first⟩

-- Rules

theorem matchesTask_relisted (ht : t.Relisted t') (rule : Rule)
    (effective : Class) : matchesTask rule t effective = matchesTask rule t' effective := by
  simp only [matchesTask, ht.role, ht.purpose, ht.readiness, ht.work.risk, ht.domains.mem_iff]

theorem highestRules_perm (h : found.Perm found') : (highestRules found).Perm (highestRules found') := by
  have hmax : (found.map Rule.priority).max? = (found'.map Rule.priority).max? := by
    ext priority
    rw [max?_eq_some_iff, max?_eq_some_iff]
    simp only [(h.map Rule.priority).mem_iff]
  unfold highestRules
  rw [hmax]
  exact h.filter _

/-- The decision about the rule, apart from the order in which matching rules are reported. -/
structure Selection.Same (s s' : Selection) : Prop where
  clear : s.reason_codes = [] ↔ s'.reason_codes = []
  effective_class : s.effective_class = s'.effective_class
  rule_id : s.rule_id = s'.rule_id
  rule : s.rule = s'.rule

theorem selectCompiledRule_relisted (ht : t.Relisted t') (hdoc : doc.Relisted doc') (hr : risks.Relisted risks') :
    (selectCompiledRule L t doc risks).Same (selectCompiledRule L t' doc' risks') := by
  unfold selectCompiledRule
  rw [← ht.role, ← ht.readiness]
  split
  · exact ⟨Iff.rfl, rfl, rfl, rfl⟩
  · cases he : effectiveClass L t risks with
    | error error =>
      cases he' : effectiveClass L t' risks' with
      | error error' => exact ⟨by simp, rfl, rfl, rfl⟩
      | ok c =>
        have hc := effectiveClass_relisted hr.symm ht.symm he'
        simp [he] at hc
    | ok effective =>
      have hfound : (doc.rules.filter (matchesTask · t effective)).Perm
          (doc'.rules.filter (matchesTask · t' effective)) := by
        simp only [matchesTask_relisted ht]
        exact hdoc.rules.filter _
      have hhighest := highestRules_perm hfound
      rw [effectiveClass_relisted hr ht he]
      cases hl : highestRules (doc.rules.filter (matchesTask · t effective)) with
      | nil =>
        rw [hl] at hhighest
        simp only [hl, hhighest.nil_eq.symm]
        exact ⟨by simp, rfl, rfl, rfl⟩
      | cons rule rest =>
        rw [hl] at hhighest
        cases rest with
        | nil =>
          have hone := List.perm_singleton.mp hhighest.symm
          simp only [hl, hone]
          split <;> exact ⟨by simp, rfl, rfl, rfl⟩
        | cons second rest =>
          cases hl' : highestRules (doc'.rules.filter (matchesTask · t' effective)) with
          | nil => simp [hl'] at hhighest
          | cons rule' rest' =>
            cases rest' with
            | nil => simp [hl'] at hhighest
            | cons second' rest' =>
              simp only [hl, hl']
              exact ⟨by simp, rfl, rfl, rfl⟩

theorem stageGroups_relisted (ht : task.Relisted task') : stageGroups task rule = stageGroups task' rule := by
  simp only [stageGroups, ht.stage, ht.quality_stage_index]

/-- In valid snapshots nothing that is looked up is named twice. -/
structure PolicySnapshot.Distinct (policy : PolicySnapshot) : Prop where
  accounts : (policy.resources.accounts.map Account.id).Nodup
  channels : (policy.resources.channels.map Channel.id).Nodup
  quota_pools : (policy.resources.quota_pools.map QuotaPool.id).Nodup
  budgets : (policy.resources.budgets.map Budget.id).Nodup
  profiles : (policy.resources.profiles.map RegisteredProfile.toProfileRef).Nodup
  profile_facts : (policy.profile_facts.map ProfileFacts.profile).Nodup

structure CapacitySnapshot.Distinct (capacity : CapacitySnapshot) : Prop where
  accounts : (capacity.accounts.map AccountState.id).Nodup
  pools : (capacity.pools.map PoolState.id).Nodup
  estimates : (capacity.estimates.map Estimate.profile).Nodup
  demand : ∀ e ∈ capacity.estimates, (e.demand.map Demand.pool_id).Nodup

theorem unique_ok [DecidableEq κ] {key : α → κ} : unique rows key = .ok u ↔ (rows.map key).Nodup := by
  simp [unique, ensure_ok]

theorem validateResources_ok : validateResources policy = .ok u ↔ policy.Distinct := by
  simp only [validateResources, bind_ok, unique_ok]
  constructor
  · rintro ⟨-, haccounts, -, hchannels, -, hpools, -, hbudgets, -, hprofiles, hfacts⟩
    exact ⟨haccounts, hchannels, hpools, hbudgets, hprofiles, hfacts⟩
  · intro h
    exact ⟨(), h.accounts, (), h.channels, (), h.quota_pools, (), h.budgets, (), h.profiles, h.profile_facts⟩

theorem validateCapacity_ok : validateCapacity capacity = .ok u ↔ capacity.Distinct := by
  simp only [validateCapacity, bind_ok, unique_ok, pure_ok]
  constructor
  · rintro ⟨-, haccounts, -, hpools, -, hestimates, found, heach, -⟩
    refine ⟨haccounts, hpools, hestimates, fun e he => ?_⟩
    obtain ⟨_, hunique, -⟩ := each_ok heach e he
    exact unique_ok.mp hunique
  · intro h
    have heach : each (fun estimate => unique estimate.demand Demand.pool_id) capacity.estimates =
        .ok (capacity.estimates.map fun _ => ()) :=
      each_map fun e he => unique_ok.mpr (h.demand e he)
    exact ⟨(), h.accounts, (), h.pools, (), h.estimates, _, heach, trivial⟩

theorem Valid.policy_distinct (h : Valid L task policy (some capacity)) : policy.Distinct := by
  have hv := h.validated
  simp only [validate, bind_ok] at hv
  obtain ⟨_, hresources, _⟩ := hv
  exact validateResources_ok.mp hresources

theorem Valid.capacity_distinct (h : Valid L task policy (some capacity)) : capacity.Distinct := by
  have hv := h.validated
  simp only [validate, bind_ok] at hv
  obtain ⟨_, _, _, hcapacity, _⟩ := hv
  exact validateCapacity_ok.mp hcapacity

theorem PolicySnapshot.Distinct.relisted (h : policy.Distinct) (hp : policy.Relisted policy') :
    policy'.Distinct where
  accounts := (hp.resources.accounts.map _).nodup_iff.mp h.accounts
  channels := (hp.resources.channels.map _).nodup_iff.mp h.channels
  quota_pools := (hp.resources.quota_pools.map _).nodup_iff.mp h.quota_pools
  budgets := (hp.resources.budgets.map _).nodup_iff.mp h.budgets
  profiles := (hp.resources.profiles.map _).nodup_iff.mp h.profiles
  profile_facts := (hp.profile_facts.map _).nodup_iff.mp h.profile_facts

theorem CapacitySnapshot.Distinct.relisted (h : capacity.Distinct)
    (hc : capacity.Relisted capacity') : capacity'.Distinct where
  accounts := (hc.accounts.map _).nodup_iff.mp h.accounts
  pools := (hc.pools.map _).nodup_iff.mp h.pools
  estimates := (hc.estimates.map fun _ _ he => he.profile).nodup_iff.mp h.estimates
  demand := (hc.estimates.forall fun _ _ he => (he.demand.map Demand.pool_id).nodup_iff).mp h.demand

theorem checkRule_relisted (h : doc.Relisted doc') : checkRule doc = checkRule doc' := by
  funext rule
  have hcontains : doc.profile_groups.contains = doc'.profile_groups.contains :=
    funext h.profile_groups.contains
  simp only [checkRule, hcontains, mem_groups h]

theorem checkRulebook_relisted (h : doc.Relisted doc') (hok : checkRulebook doc = .ok ()) :
    checkRulebook doc' = .ok () := by
  simp only [checkRulebook, bind_ok, ensure_ok, ← h.resource_policy, ← checkRule_relisted h] at hok ⊢
  obtain ⟨-, hsome, -, hids, -, hgroups, done, hrules, -, hqueue, horder⟩ := hok
  obtain ⟨done', hrules', -⟩ := (of_perm h.rules).each
    (fun rule rule' c heq hc => ⟨c, heq ▸ hc, rfl⟩) hrules
  refine ⟨(), ?_, (), ?_, (), ?_, done', hrules', (), hqueue, horder⟩
  · rwa [← h.rules.isEmpty_eq]
  · exact decide_eq_true ((h.rules.map Rule.id).nodup_iff.mp (of_decide_eq_true hids))
  · simp only [all_eq_true, decide_eq_true_eq] at hgroups ⊢
    exact h.profile_groups.nodup hgroups

theorem validateClassification_relisted (ht : t.Relisted t')
    (hr : risks.Relisted risks') (h : validateClassification L t risks = .ok ()) :
    validateClassification L t' risks' = .ok () := by
  simp only [validateClassification, bind_ok, ensure_ok, ← hr.mapping, ← ht.role, ← ht.purpose] at h ⊢
  obtain ⟨stems, hstems, _, hmapping, checked, hpaths, hpurpose⟩ := h
  obtain ⟨stems', hstems', -⟩ := (of_perm hr.path_floors).each
    (fun floor floor' c heq hc => ⟨c, heq ▸ hc, rfl⟩) hstems
  have hworks : Listing.Relisted Work.Relisted t.works t'.works :=
    .cons ht.work (ht.authors.map_imp fun _ _ ha => ha.work)
  obtain ⟨checked', hpaths', -⟩ := hworks.each (S := fun _ _ => True)
    (fun w w' c hw hc => by
      obtain ⟨c', hc', -⟩ := (of_perm hw.paths).each
        (fun path path' d heq hd => ⟨d, heq ▸ hd, rfl⟩) hc
      exact ⟨c', hc', trivial⟩) hpaths
  exact ⟨stems', hstems', (), hmapping, checked', hpaths', hpurpose⟩

section
variable (hd : capacity.Distinct) (hc : capacity.Relisted capacity')
include hd hc

theorem account_relisted (account_id : String) : capacity.account? account_id = capacity'.account? account_id :=
  (find_perm hd.accounts hc.accounts).symm

theorem pool_relisted (pool_id : String) : capacity.pool? pool_id = capacity'.pool? pool_id :=
  (find_perm hd.pools hc.pools).symm

theorem estimate_relisted (key : ProfileRef) :
    Option.Rel Estimate.Relisted (capacity.estimate? key) (capacity'.estimate? key) :=
  hc.estimates.find hd.estimates fun _ _ he => he.profile

theorem price_relisted (key : ProfileRef) :
    (capacity.estimate? key).bind Estimate.price = (capacity'.estimate? key).bind Estimate.price := by
  have hrel := estimate_relisted hd hc key
  cases he : capacity.estimate? key with
  | none =>
    cases he' : capacity'.estimate? key with
    | none => rfl
    | some _ => simp [he, he'] at hrel
  | some estimate =>
    cases he' : capacity'.estimate? key with
    | none => simp [he, he'] at hrel
    | some estimate' =>
      rw [he, he', Option.rel_some_some] at hrel
      exact hrel.price

end

variable {e e' : Estimate}

theorem demands_relisted (h : e.Relisted e') (hd : (e.demand.map Demand.pool_id).Nodup) (pool_id : String) :
    e.demands.get? pool_id = e'.demands.get? pool_id := by
  have hperm := h.demand.map fun d => (d.pool_id, d)
  have hkeys : ((e.demand.map fun d => (d.pool_id, d)).map Prod.fst).Nodup := by
    simpa [Function.comp_def] using hd
  have hkeys' := (hperm.map Prod.fst).nodup_iff.mp hkeys
  rw [Estimate.demands, Estimate.demands, get?_ofList hkeys, get?_ofList hkeys',
    lookup_perm hkeys hperm.symm]

/-- Two rows that differ in the order of their reasons, and in how often they have each. -/
structure Candidate.Same (row row' : Candidate) : Prop where
  rest : { row with reason_codes := row'.reason_codes } = row'
  codes : ∀ code, code ∈ row.reason_codes ↔ code ∈ row'.reason_codes

theorem Candidate.Same.refuse {row row' : Candidate} (h : row.Same row') (hr : reasons.Perm reasons') :
    (row.refuse reasons).Same (row'.refuse reasons') := by
  refine ⟨?_, fun code => ?_⟩
  · rw [← h.rest]
    rfl
  · simp only [Candidate.refuse_codes, mem_append, h.codes, (hr.map Reason.text).mem_iff]

theorem Candidate.Same.settle {row row' : Candidate} (h : row.Same row') : row.settle = row'.settle := by
  rw [← h.rest]
  simp only [Candidate.settle, sortedSet_congr h.codes]

section
variable (hd : policy.Distinct) (hp : policy.Relisted policy')
include hd hp

theorem bound_relisted (key : ProfileRef) : policy.resources.bound? key = policy'.resources.bound? key := by
  simp only [ResourceCatalog.bound?, find_perm hd.profiles hp.resources.profiles]

theorem facts_relisted (key : ProfileRef) : policy.facts? key = policy'.facts? key :=
  (find_perm hd.profile_facts hp.profile_facts).symm

theorem quotaPool_relisted (pool_id : String) : policy.quotaPool? pool_id = policy'.quotaPool? pool_id :=
  (find_perm hd.quota_pools hp.resources.quota_pools).symm

theorem channelReasons_relisted (profile : Profile) :
    channelReasons policy.resources profile = channelReasons policy'.resources profile := by
  simp only [channelReasons, find_perm hd.channels hp.resources.channels,
    find_perm hd.accounts hp.resources.accounts]

end

theorem constraintReasons_relisted (ht : task.Relisted task') (hc : c.Relisted c') (profile : Profile) :
    constraintReasons task profile c = constraintReasons task' profile c' := by
  have htools : (task.tools ++ profile.required_permissions).all (· ∈ c.tools) =
      (task'.tools ++ profile.required_permissions).all (· ∈ c'.tools) := by
    rw [Bool.eq_iff_iff]
    simp only [all_eq_true, mem_append, ht.tools.mem_iff, decide_eq_true_eq, hc.tools.mem_iff]
  simp only [constraintReasons, hc.channel_ids.mem_iff, htools]

theorem reviewReasons_relisted (ht : task.Relisted task') (registered : RegisteredProfile) :
    (reviewReasons task rule effective registered).Perm (reviewReasons task' rule effective registered) := by
  have hauthors := ht.classification.authors
  have hempty : task.authors.isEmpty = task'.authors.isEmpty := by
    rw [Bool.eq_iff_iff, isEmpty_iff_length_eq_zero, isEmpty_iff_length_eq_zero, hauthors.length]
  have hreasons : (task.authors.map (authorReasons task rule effective registered)).Perm
      (task'.authors.map (authorReasons task' rule effective registered)) := by
    refine hauthors.map fun a a' ha => ?_
    simp only [authorReasons, ha.attempt_id, ha.context_id, ha.model_family, ht.planned_attempt_id,
      ht.planned_context_id]
  unfold reviewReasons
  rw [← ht.classification.role, hempty]
  split
  · refine List.Perm.append_left _ ?_
    simpa [flatMap_def] using hreasons.flatten
  · exact .refl _

section
variable (ht : task.Relisted task') (hp : policy.Relisted policy')
include ht hp

theorem stageRefusal_relisted : stageRefusal task policy.rulebook = stageRefusal task' policy'.rulebook := by
  have ha := ht.authorization
  have hquality : ∀ previous, qualityRefusal task policy.rulebook previous =
      qualityRefusal task' policy'.rulebook previous := by
    intro previous
    simp only [qualityRefusal, ha.constraints.profile_refs.mem_iff, ha.max_quality_repair_rounds,
      hp.rulebook.max_quality_repair_rounds, ha.approved_quality_stage_indices.mem_iff,
      ht.quality_repair_rounds_used, ht.quality_stage_index]
  simp only [stageRefusal, ha.allowed_stages.mem_iff, ht.stage, ht.failure_reason,
    ht.previous_profile, hquality]

theorem opens_relisted : Opens L task policy effective rule ↔ Opens L task' policy' effective rule := by
  have hselect := selectCompiledRule_relisted (L := L) ht.classification hp.rulebook hp.risk_policy
  have hstage := stageRefusal_relisted ht hp
  constructor
  · intro h
    exact ⟨hselect.clear.mp h.clear, hselect.effective_class ▸ h.at_class, hselect.rule ▸ h.by_rule,
      hstage ▸ h.open_stage⟩
  · intro h
    exact ⟨hselect.clear.mpr h.clear, hselect.effective_class ▸ h.at_class, hselect.rule ▸ h.by_rule,
      hstage ▸ h.open_stage⟩

theorem consideredRefs_relisted :
    consideredRefs task policy rule none = consideredRefs task' policy' rule none := by
  refine sortedSet_congr fun ref => ?_
  rw [stageRefs, stageRefs, stageGroups_relisted ht, mem_groups hp.rulebook]

-- Valid snapshots

theorem Valid.relisted (hc : capacity.Relisted capacity') (h : Valid L task policy (some capacity)) :
    Valid L task' policy' (some capacity') := by
  refine ⟨checkRulebook_relisted hp.rulebook h.compiled, ?_⟩
  have hresources : validateResources policy' = .ok () :=
    validateResources_ok.mpr (h.policy_distinct.relisted hp)
  have hcapacity : validateCapacity capacity' = .ok () :=
    validateCapacity_ok.mpr (h.capacity_distinct.relisted hc)
  have hv := h.validated
  simp only [validate, bind_ok] at hv ⊢
  obtain ⟨_, _, _, _, checked, hprofiles, hclassified⟩ := hv
  obtain ⟨checked', hprofiles', -⟩ := (of_perm hp.resources.profiles).each
    (fun profile profile' c heq hd => ⟨c, heq ▸ hd, rfl⟩) hprofiles
  exact ⟨(), hresources, (), hcapacity, checked', hprofiles',
    validateClassification_relisted ht.classification hp.risk_policy hclassified⟩

-- Lookups

-- The static checks

theorem approvalReasons_relisted : approvalReasons key task policy = approvalReasons key task' policy' := by
  simp only [approvalReasons, hp.approved_profile_refs.mem_iff, hp.constraints.profile_refs.mem_iff,
    ht.authorization.constraints.profile_refs.mem_iff, ht.authorization.ceiling_profile_refs.mem_iff]

theorem required_relisted : required task policy rule effective = required task' policy' rule effective := by
  have hrole : roleCapabilities task effective = roleCapabilities task' effective := by
    simp only [roleCapabilities, ht.classification.role, ht.classification.purpose]
  refine sortedSet_congr fun capability => ?_
  simp only [mem_append, hrole, ht.required_capabilities.mem_iff,
    hp.constraints.required_capabilities.mem_iff,
    ht.authorization.constraints.required_capabilities.mem_iff]

theorem qualificationReasons_relisted
    (as_of : Rat) (profile : Profile) (profile_hash : String) (facts : ProfileFacts) :
    qualificationReasons task policy as_of profile profile_hash facts =
      qualificationReasons task' policy' as_of profile profile_hash facts := by
  have htools : task.tools.all (· ∈ facts.tools) = task'.tools.all (· ∈ facts.tools) := ht.tools.all_eq
  simp only [qualificationReasons, ht.classification.role, htools, ht.context_tokens,
    ht.reserved_output_tokens, any_cons, any_nil,
    hp.constraints.data_destinations.mem_iff,
    ht.authorization.constraints.data_destinations.mem_iff]

theorem groupApproved_relisted (groups : List String) : groupApproved key task policy.rulebook groups =
      groupApproved key task' policy'.rulebook groups := by
  simp only [groupApproved, (ht.authorization.approved_groups.getD _).mem_iff, (hp.rulebook.group _).mem_iff]

end

section
variable (hd : policy.Distinct) (ht : task.Relisted task') (hp : policy.Relisted policy')
  (as_of : Rat)
include hd ht hp

theorem factsReasons_relisted (profile : Profile) (profile_hash : String) :
    factsReasons task policy as_of key profile profile_hash =
      factsReasons task' policy' as_of key profile profile_hash := by
  simp only [factsReasons, facts_relisted hd hp, qualificationReasons_relisted ht hp]

theorem boundReasons_relisted (registered : RegisteredProfile) (profile : Profile) :
    (boundReasons L key task policy as_of rule effective registered profile).Perm
      (boundReasons L key task' policy' as_of rule effective registered profile) := by
  simp only [boundReasons, channelReasons_relisted hd hp,
    constraintReasons_relisted ht hp.constraints,
    constraintReasons_relisted ht ht.authorization.constraints, factsReasons_relisted hd ht hp,
    required_relisted ht hp]
  exact (reviewReasons_relisted ht registered).append_left _

theorem profileChecks_relisted : (profileChecks L key task policy as_of rule effective).Same
      (profileChecks L key task' policy' as_of rule effective) := by
  have hnew : ((Candidate.new key).refuse (approvalReasons key task policy)).Same
      ((Candidate.new key).refuse (approvalReasons key task' policy')) := by
    rw [approvalReasons_relisted ht hp]
    exact ⟨rfl, fun _ => Iff.rfl⟩
  unfold profileChecks
  rw [← bound_relisted hd hp]
  cases policy.resources.bound? key with
  | none => exact hnew.refuse (.refl _)
  | some bound =>
    simp only [← facts_relisted hd hp, ← required_relisted ht hp]
    refine Candidate.Same.refuse ⟨?_, hnew.codes⟩ (boundReasons_relisted hd ht hp as_of _ _)
    rw [← hnew.rest]

theorem memberCandidate_relisted (groups : List String) :
    memberCandidate L task policy policy.rulebook as_of rule effective groups key =
      memberCandidate L task' policy' policy'.rulebook as_of rule effective groups key := by
  unfold memberCandidate
  rw [groupApproved_relisted ht hp]
  exact ((profileChecks_relisted hd ht hp as_of).refuse (.refl _)).settle

end

-- The checks against the capacity

theorem leadAccess_relisted (ht : task.Relisted task') : leadAccess task rule = leadAccess task' rule := by
  simp only [leadAccess, ht.classification.role, ht.classification.purpose]

theorem accountReasons_relisted (ht : task.Relisted task') (account : AccountState) (account_id : String) :
    accountReasons account account_id task = accountReasons account account_id task' := by
  simp only [accountReasons, ht.duration_seconds, ht.authorization.max_attempt_duration_seconds]

theorem vectorReasons_relisted (h : e.Relisted e')
    (hd : (e.demand.map Demand.pool_id).Nodup) (pool_ids : List String) :
    vectorReasons pool_ids e = vectorReasons pool_ids e' := by
  have hcontains : e.demands.contains = e'.demands.contains := by
    funext pool_id
    simp only [Dict.contains, demands_relisted h hd]
  have hkeys : e.demands.keys.all (· ∈ pool_ids) = e'.demands.keys.all (· ∈ pool_ids) := by
    rw [Bool.eq_iff_iff]
    simp only [List.all_eq_true, Dict.mem_keys, demands_relisted h hd]
  simp only [vectorReasons, hcontains, hkeys]

variable (hdp : policy.Distinct) (hdc : capacity.Distinct) (ht : task.Relisted task')
  (hp : policy.Relisted policy') (hc : capacity.Relisted capacity')
include hdp hdc ht hp hc

section
variable (he : e.Relisted e') (hd : (e.demand.map Demand.pool_id).Nodup)
include he hd

theorem checkPool_relisted (account : AccountState)
    (account_id : String) (lead revalidate : Bool) :
    checkPool task policy capacity account account_id e lead revalidate =
      checkPool task' policy' capacity' account account_id e' lead revalidate := by
  funext pool_id
  have hunknown : ∀ pool : PoolState, pool.unknown e = pool.unknown e' := by
    intro pool
    simp only [PoolState.unknown, he.confidence]
  simp only [checkPool, poolBound, quotaPool_relisted hdp hp, pool_relisted hdc hc,
    demands_relisted he hd, quotaReasons, unknownReasons, evaluateQuota, PoolState.pressure, hunknown,
    ht.duration_seconds, hc.as_of]

theorem checkDemand_relisted (row : Candidate)
    (account : AccountState) (registered : RegisteredProfile) (account_id : String) (lead revalidate : Bool) :
    checkDemand row task policy capacity account registered account_id e lead revalidate =
      checkDemand row task' policy' capacity' account registered account_id e' lead revalidate := by
  simp only [checkDemand, checkPool_relisted hdp hdc ht hp hc he hd, vectorReasons_relisted he hd,
    quotaSortInputs, uncertaintyBand, he.confidence, he.completion_seconds]

end

theorem checkResources_relisted (row : Candidate) (revalidate : Bool) :
    checkResources row task policy capacity rule revalidate =
      checkResources row task' policy' capacity' rule revalidate := by
  unfold checkResources
  rw [← bound_relisted hdp hp]
  cases policy.resources.bound? row.profile with
  | none => rfl
  | some bound =>
    obtain ⟨registered, profile⟩ := bound
    simp only [← account_relisted hdc hc, ← leadAccess_relisted ht, ← accountReasons_relisted ht, ← hc.as_of]
    cases capacity.account? profile.binding.account_id with
    | none => rfl
    | some account =>
      have hrel := estimate_relisted hdc hc row.profile
      simp only [Candidate.refuse_profile]
      cases he : capacity.estimate? row.profile with
      | none =>
        cases he' : capacity'.estimate? row.profile with
        | none => rfl
        | some _ => simp [he, he'] at hrel
      | some estimate =>
        cases he' : capacity'.estimate? row.profile with
        | none => simp [he, he'] at hrel
        | some estimate' =>
          rw [he, he', Option.rel_some_some] at hrel
          have hdemand := hdc.demand estimate (mem_of_find?_eq_some he)
          exact checkDemand_relisted hdp hdc ht hp hc hrel hdemand ..

-- Cash

theorem budgetReasons_relisted (profile : Profile) (currency : String) (upper : Quantity) :
    budgetReasons task policy capacity profile currency upper =
      budgetReasons task' policy' capacity' profile currency upper := by
  have hplanning : planningBudget task = planningBudget task' := by
    simp only [planningBudget, ht.classification.role]
  have hbudget : budget? task policy = budget? task' policy' := by
    simp only [budget?, configuredBudget, find_perm hdp.budgets hp.resources.budgets,
      ht.authorization.budget_ref, hplanning, hp.rulebook.resource_policy]
    rfl
  simp only [budgetReasons, hbudget, cashBounds, ht.authorization.currency_limits,
    ht.authorization.budget_ref, hc.budget_remaining, account_relisted hdc hc]
  rfl

theorem checkCash_relisted (row : Candidate) :
    checkCash L row task policy capacity = checkCash L row task' policy' capacity' := by
  simp only [checkCash, bound_relisted hdp hp, price_relisted hdc hc, cashReasons, hc.as_of,
    budgetReasons_relisted hdp hdc ht hp hc, Candidate.refuse_profile]

theorem checkedCandidate_relisted (revalidate : Bool) :
    checkedCandidate L task policy capacity rule effective revalidate =
      checkedCandidate L task' policy' capacity' rule effective revalidate := by
  funext key
  simp only [checkedCandidate, stageGroups_relisted ht, hc.as_of, memberCandidate_relisted hdp ht hp,
    checkResources_relisted hdp hdc ht hp hc, checkCash_relisted hdp hdc ht hp hc]

end Karajan.Routing
