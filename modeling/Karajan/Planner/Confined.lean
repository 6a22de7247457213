import Karajan.Routing.Reports
import Karajan.Planner.Ceilings

/-!
# What an approved plan is granted

The grants of a binding name profiles. Each of them was granted by the plan and
by the ceiling of the run, stands in the group it is granted of, and the group
is one that the rule uses at that stage.
-/

namespace Karajan.Planner

open List Dict
open Routing (Rule Rulebook ProfileRef compileRulebook compileRulebook_ok checkRulebook)
open Check

-- Grants

/-- The profile may do the normal work of the rule, as a member of the group. -/
def Binding.GrantsNormal (b : Binding) (rule_id group : String) (p : ProfileRef) : Prop :=
  ∃ grant granted, b.stage_grants.get? rule_id = some grant ∧ grant.normal.get? group = some granted ∧
    p ∈ granted

/-- The profile may do the work of a quality stage of the rule, as a member of the group. -/
def Binding.GrantsQuality (b : Binding) (rule_id : String) (index : Nat) (group : String)
    (p : ProfileRef) : Prop :=
  ∃ grant, b.stage_grants.get? rule_id = some grant ∧
    ∃ q ∈ grant.quality, q.index = index ∧ q.group = group ∧ p ∈ q.profiles

section
theorem stageGrants_get (hids : (book.rules.map Rule.id).Nodup) :
    (stageGrants book permitted authorization).get? rule_id = some grant ↔
      ∃ rule ∈ book.rules, rule.id = rule_id ∧ ∃ permission,
        authorization.stage_permissions.get? rule_id = some permission ∧
          stageGrant book permitted rule permission = grant := by
  have hkeys : ((book.rules.filterMap fun rule =>
      (authorization.stage_permissions.get? rule.id).map fun permission =>
        (rule.id, stageGrant book permitted rule permission)).map Prod.fst).Nodup := by
    refine List.Nodup.sublist ?_ hids
    induction book.rules with
    | nil => exact .slnil
    | cons rule rules ih =>
      cases h : authorization.stage_permissions.get? rule.id with
      | none => simpa [filterMap_cons, h] using ih.cons rule.id
      | some => simpa [filterMap_cons, h] using ih.cons_cons rule.id
  rw [stageGrants, get?_ofList hkeys, lookup_eq_some hkeys]
  simp only [mem_filterMap, Option.map_eq_some_iff, Prod.mk.injEq]
  constructor
  · rintro ⟨rule, hr, permission, hp, rfl, rfl⟩
    exact ⟨rule, hr, rfl, permission, hp, rfl⟩
  · rintro ⟨rule, hr, rfl, permission, hp, rfl⟩
    exact ⟨rule, hr, permission, hp, rfl, rfl⟩

theorem stageGrant_normal (hd : rule.eligible_groups.Nodup) :
    (stageGrant book permitted rule permission).normal.get? group = some granted ↔
      permission.normal = true ∧ group ∈ rule.eligible_groups ∧
        members book permitted group = granted := by
  have hkeys : ((rule.eligible_groups.map fun group =>
      (group, members book permitted group)).map Prod.fst).Nodup := by
    simpa [Function.comp_def] using hd
  cases hn : permission.normal with
  | false => simp [stageGrant, hn]
  | true =>
    simp only [stageGrant, hn, if_true, get?_ofList hkeys, lookup_eq_some hkeys,
      mem_map, Prod.mk.injEq, true_and]
    constructor
    · rintro ⟨g, hg, rfl, rfl⟩
      exact ⟨hg, rfl⟩
    · rintro ⟨hg, rfl⟩
      exact ⟨group, hg, rfl, rfl⟩

theorem stageGrant_quality : q ∈ (stageGrant book permitted rule permission).quality ↔
      q.index ∈ permission.quality_indices ∧
        rule.quality_escalation_groups[q.index]? = some q.group ∧
        members book permitted q.group = q.profiles := by
  simp only [stageGrant, List.mem_map, List.mem_filter, Prod.exists, List.mem_zipIdx_iff_getElem?,
    decide_eq_true_eq]
  constructor
  · rintro ⟨group, index, ⟨hg, hi⟩, rfl⟩
    exact ⟨hi, hg, rfl⟩
  · rintro ⟨hi, hg, hm⟩
    obtain ⟨index, group, profiles⟩ := q
    exact ⟨group, index, ⟨hg, hi⟩, by rw [hm]⟩

theorem mem_members : p ∈ members book permitted group ↔ p ∈ book.group group ∧ p ∈ permitted := by
  simp [members]

end

-- Resolving

section
structure Resolves (L : Library) (run : RunV2) (plan : PlanV2) : Prop where
  conforms : Conforms L plan.authorization run.execution_policy_snapshot
    run.configuration_snapshot.configuration
  narrower : Narrower L plan.authorization run.authorization_ceiling
  compiled : checkRulebook run.configuration_snapshot.configuration.rulebook.toRulebook = .ok ()
  unambiguous : Routing.compileIssues run.configuration_snapshot.configuration.rulebook.rules = []
  tasks : ∀ task ∈ plan.tasks,
    validateRequirements run.execution_policy_snapshot plan.authorization task = .ok ()

theorem compiled_ok : (compileRulebook book).mapError PlanError.rulebook = .ok compiled ↔
    checkRulebook book = .ok () ∧ compiled = ⟨book, Routing.compileIssues book.rules,
      (Routing.compileWarnings book).map fun name => s!"profile_groups.{name}"⟩ := by
  rw [← compileRulebook_ok]
  cases h : compileRulebook book <;> simp [Except.mapError]

theorem resolveBinding_ok : resolveBinding L run plan = .ok b ↔ Resolves L run plan ∧
    b = bindingOf L run plan run.configuration_snapshot.configuration.rulebook.toRulebook := by
  simp only [resolveBinding, bind_ok, compiled_ok, ensure_ok, List.isEmpty_iff, pure_ok]
  constructor
  · rintro ⟨_, hauthorized, compiled, ⟨hc, rfl⟩, _, hissues, us, htasks, rfl⟩
    obtain ⟨hconforms, hnarrower⟩ := validateAuthorization_ok.mp hauthorized
    exact ⟨⟨hconforms, hnarrower, hc, hissues, each_units.mp ⟨us, htasks⟩⟩, rfl⟩
  · rintro ⟨h, rfl⟩
    obtain ⟨us, htasks⟩ := each_units.mpr h.tasks
    exact ⟨(), validateAuthorization_ok.mpr ⟨h.conforms, h.narrower⟩, _, ⟨h.compiled, rfl⟩, (),
      h.unambiguous, us, htasks, rfl⟩

theorem rules_distinct (h : checkRulebook book = .ok ()) : (book.rules.map Rule.id).Nodup := by
  simp only [checkRulebook, bind_ok, ensure_ok, decide_eq_true_eq] at h
  obtain ⟨-, -, _, hids, -⟩ := h
  exact hids

theorem eligible_distinct (h : checkRulebook book = .ok ()) (hr : rule ∈ book.rules) :
    rule.eligible_groups.Nodup := by
  simp only [checkRulebook, bind_ok] at h
  obtain ⟨-, -, _, -, _, -, _, hrules, -⟩ := h
  obtain ⟨⟨⟩, hrule, -⟩ := each_ok hrules rule hr
  simp only [Routing.checkRule, bind_ok, ensure_ok, decide_eq_true_eq] at hrule
  obtain ⟨-, -, _, -, _, -, _, hd, -⟩ := hrule
  exact hd

/-- A rule uses the group at its normal stage, or at a quality stage. -/
def usesGroup (rule : Rule) (group : String) : Option Nat → Prop
  | none => group ∈ rule.eligible_groups
  | some index => rule.quality_escalation_groups[index]? = some group

def permitsStage (a : AuthorizationV2) (rule_id : String) (stage : Option Nat) : Prop :=
  ∃ permission, a.stage_permissions.get? rule_id = some permission ∧
    match stage with
    | none => permission.normal = true
    | some index => index ∈ permission.quality_indices

/-- The profile may do the work of that stage of the rule, as a member of the group. -/
def Binding.GrantsAt (b : Binding) (rule_id group : String) (p : ProfileRef) : Option Nat → Prop
  | none => b.GrantsNormal rule_id group p
  | some index => b.GrantsQuality rule_id index group p

theorem grantsAt_iff (h : Resolves L run plan)
    (hb : b = bindingOf L run plan run.configuration_snapshot.configuration.rulebook.toRulebook) :
    b.GrantsAt rule_id group p stage ↔
      p ∈ plan.authorization.profile_refs ∧ p ∈ run.authorization_ceiling.profile_refs ∧
      p ∈ run.configuration_snapshot.configuration.rulebook.group group ∧
      permitsStage plan.authorization rule_id stage ∧
      ∃ rule ∈ run.configuration_snapshot.configuration.rulebook.rules,
        rule.id = rule_id ∧ usesGroup rule group stage := by
  subst hb
  have hgrant : ∀ grant, (bindingOf L run plan
      run.configuration_snapshot.configuration.rulebook.toRulebook).stage_grants.get? rule_id =
        some grant ↔ _ := fun grant => stageGrants_get (rules_distinct h.compiled)
  have hp : p ∈ permittedRefs run plan ↔
      p ∈ plan.authorization.profile_refs ∧ p ∈ run.authorization_ceiling.profile_refs := by
    simp [permittedRefs]
  cases stage with
  | none =>
    simp only [Binding.GrantsAt, Binding.GrantsNormal, hgrant, permitsStage, usesGroup]
    constructor
    · rintro ⟨_, granted, ⟨rule, hr, hid, permission, hpermission, rfl⟩, hget, hmem⟩
      obtain ⟨hnormal, hgroup, rfl⟩ := (stageGrant_normal (eligible_distinct h.compiled hr)).mp hget
      obtain ⟨hin, hpermitted⟩ := mem_members.mp hmem
      exact ⟨(hp.mp hpermitted).1, (hp.mp hpermitted).2, hin, ⟨permission, hpermission, hnormal⟩,
        rule, hr, hid, hgroup⟩
    · rintro ⟨hplan, hceiling, hin, ⟨permission, hpermission, hnormal⟩, rule, hr, hid, hgroup⟩
      exact ⟨_, _, ⟨rule, hr, hid, permission, hpermission, rfl⟩,
        (stageGrant_normal (eligible_distinct h.compiled hr)).mpr ⟨hnormal, hgroup, rfl⟩,
        mem_members.mpr ⟨hin, hp.mpr ⟨hplan, hceiling⟩⟩⟩
  | some index =>
    simp only [Binding.GrantsAt, Binding.GrantsQuality, hgrant, permitsStage, usesGroup]
    constructor
    · rintro ⟨_, ⟨rule, hr, hid, permission, hpermission, rfl⟩, q, hq, rfl, rfl, hmem⟩
      obtain ⟨hindex, hgroup, hprofiles⟩ := stageGrant_quality.mp hq
      rw [← hprofiles] at hmem
      obtain ⟨hin, hpermitted⟩ := mem_members.mp hmem
      exact ⟨(hp.mp hpermitted).1, (hp.mp hpermitted).2, hin, ⟨permission, hpermission, hindex⟩,
        rule, hr, hid, hgroup⟩
    · rintro ⟨hplan, hceiling, hin, ⟨permission, hpermission, hindex⟩, rule, hr, hid, hgroup⟩
      exact ⟨_, ⟨rule, hr, hid, permission, hpermission, rfl⟩, ⟨index, group, _⟩,
        stageGrant_quality.mpr ⟨hindex, hgroup, rfl⟩, rfl, rfl,
        mem_members.mpr ⟨hin, hp.mpr ⟨hplan, hceiling⟩⟩⟩

end

end Karajan.Planner

-- Confined authority

namespace Karajan.Planner

open Capacity (Purpose)
open Routing (Rule Rulebook ProfileRef)
open Check

def Bounded (L : Library) (amount limit : String) : Prop :=
  ∃ n m, units L amount = .ok n ∧ units L limit = .ok m ∧ n ≤ m

/-- An authorization within the ceiling of a run, its policy and its configuration. -/
structure Confined (L : Library) (run : RunV2) (a : AuthorizationV2) : Prop where
  read_paths : ∀ path ∈ a.read_paths, ∃ root ∈ run.authorization_ceiling.read_paths, Below L root path
  write_paths : ∀ path ∈ a.write_paths, ∃ root ∈ run.authorization_ceiling.write_paths, Below L root path
  profile_refs : ∀ ref ∈ a.profile_refs, ref ∈ run.authorization_ceiling.profile_refs ∧
    ref ∈ run.execution_policy_snapshot.constraints.profile_refs
  channel_ids : ∀ channel ∈ a.channel_ids, channel ∈ run.authorization_ceiling.channel_ids ∧
    channel ∈ run.execution_policy_snapshot.constraints.channel_ids
  tools : ∀ tool ∈ a.tools, tool ∈ run.authorization_ceiling.tools ∧
    tool ∈ run.execution_policy_snapshot.constraints.tools
  data_destinations : ∀ destination ∈ a.data_destinations,
    destination ∈ run.authorization_ceiling.data_destinations ∧
    destination ∈ run.execution_policy_snapshot.constraints.data_destinations
  required_capabilities : ∀ capability, capability ∈ run.authorization_ceiling.required_capabilities ∨
    capability ∈ run.execution_policy_snapshot.constraints.required_capabilities →
      capability ∈ a.required_capabilities
  limits : ∃ budget longest,
    run.configuration_snapshot.configuration.budget a.budget_ref = some budget ∧
    budget.max_duration_seconds = some longest ∧
    a.max_attempt_duration_seconds ≤ run.authorization_ceiling.max_attempt_duration_seconds ∧
    a.max_attempt_duration_seconds ≤ longest ∧
    ∀ currency amount, a.currency_limits.get? currency = some amount →
      (∃ limit, run.authorization_ceiling.currency_limits.get? currency = some limit ∧
        Bounded L amount limit) ∧
      ∃ limit, budget.currency_limits.get? currency = some (some limit) ∧ Bounded L amount limit
  max_quality_repair_rounds :
    a.max_quality_repair_rounds ≤ run.authorization_ceiling.max_quality_repair_rounds ∧
    a.max_quality_repair_rounds ≤
      run.configuration_snapshot.configuration.rulebook.max_quality_repair_rounds
  stages : ∀ rule_id stage, permitsStage a rule_id stage →
    permitsStage run.authorization_ceiling rule_id stage ∧
    ∃ rule ∈ run.configuration_snapshot.configuration.rulebook.rules, rule.id = rule_id ∧
      ∀ index, stage = some index → index < rule.quality_escalation_groups.length

theorem confined (hw : Within L a.toAuthorization run.authorization_ceiling.toAuthorization)
    (hc : Conforms L a run.execution_policy_snapshot run.configuration_snapshot.configuration)
    (hn : Narrower L a run.authorization_ceiling) : Confined L run a where
  read_paths path hp := covered_below (hw.read_paths path hp)
  write_paths path hp := covered_below (hw.write_paths path hp)
  profile_refs ref href := ⟨hw.profile_refs href, hc.profile_refs.2 href⟩
  channel_ids channel h := ⟨hn.channel_ids h, hc.channel_ids.2 h⟩
  tools tool h := ⟨hn.tools h, hc.tools.2 h⟩
  data_destinations destination h := ⟨hn.data_destinations h, hc.data_destinations.2 h⟩
  required_capabilities capability h := by
    rcases h with h | h
    · exact hn.required_capabilities h
    · exact hc.required_capabilities h
  limits := by
    obtain ⟨budget, longest, hbudget, hlongest, hduration, hbound⟩ := hc.budget
    refine ⟨budget, longest, hbudget, hlongest, hn.max_attempt_duration_seconds, hduration,
      fun currency amount ha => ?_⟩
    obtain ⟨bound, n, m, hb, hread, hm, hle⟩ := hbound currency amount ha
    obtain ⟨limit, hl, hmost⟩ := hn.currency_limits currency amount ha
    obtain ⟨k, hk, hnk⟩ := hmost n hread
    exact ⟨⟨limit, hl, n, k, hread, hk, hnk⟩, bound, hb, n, m, hread, hm, hle⟩
  max_quality_repair_rounds := ⟨hn.max_quality_repair_rounds, hc.max_quality_repair_rounds⟩
  stages rule_id stage h := by
    obtain ⟨permission, hpermission, hstage⟩ := h
    obtain ⟨prior, hprior, hnormal, hindices⟩ := hn.stage_permissions rule_id permission hpermission
    obtain ⟨rule, hrule, -, hlength⟩ := hc.stage_permissions rule_id permission hpermission
    have hfound : rule ∈ run.configuration_snapshot.configuration.rulebook.rules ∧ rule.id = rule_id :=
      ⟨List.mem_reverse.mp (List.mem_of_find?_eq_some hrule), by simpa using List.find?_some hrule⟩
    cases stage with
    | none => exact ⟨⟨prior, hprior, hnormal hstage⟩, rule, hfound.1, hfound.2, by simp⟩
    | some index =>
      refine ⟨⟨prior, hprior, hindices hstage⟩, rule, hfound.1, hfound.2, ?_⟩
      rintro _ ⟨⟩
      exact hlength index hstage

theorem validatePlan_within (h : validatePlan L plan ceiling = .ok u) : Within L plan.authorization ceiling := by
  simp only [validatePlan, bind_ok] at h
  obtain ⟨_, hauthorize, -⟩ := h
  exact authorize_ok.mp hauthorize

theorem confined_of_accepted (hv : validatePlan L plan.base run.authorization_ceiling.toAuthorization = .ok u)
    (hr : resolveBinding L run plan = .ok binding) : Confined L run plan.authorization :=
  confined (validatePlan_within hv) (resolveBinding_ok.mp hr).1.conforms (resolveBinding_ok.mp hr).1.narrower

def RunV2.withCeiling (run : RunV2) (ceiling : AuthorizationV2) : RunV2 :=
  { run with authorization_ceiling := ceiling }

theorem Resolves.widened (h : Resolves L run plan)
    (hw : Narrower L run.authorization_ceiling wide) : Resolves L (run.withCeiling wide) plan :=
  ⟨h.conforms, h.narrower.trans hw, h.compiled, h.unambiguous, h.tasks⟩

theorem validateAuthorization_widened (h : validateAuthorization L a narrow policy config = .ok ())
    (hw : Widened L narrow wide) : validateAuthorization L a wide policy config = .ok () := by
  obtain ⟨hc, hn⟩ := validateAuthorization_ok.mp h
  exact validateAuthorization_ok.mpr ⟨hc, hn.trans hw.toNarrower⟩

theorem authorize_widened (h : authorize L a narrow.toAuthorization = .ok ()) (hw : Widened L narrow wide)
    (hself : authorize L wide.toAuthorization wide.toAuthorization = .ok ()) :
    authorize L a wide.toAuthorization = .ok () :=
  authorize_ok.mpr ((authorize_ok.mp h).widened hw (authorize_ok.mp hself))

/-- The authority of an approved plan is confined; the checks are transitive, and monotone in
the ceiling. -/
theorem authority_confined (L : Library) : (∀ run plan binding,
      validatePlan L plan.base run.authorization_ceiling.toAuthorization = .ok () →
      resolveBinding L run plan = .ok binding → Confined L run plan.authorization ∧
      (∀ rule_id group p stage, binding.GrantsAt rule_id group p stage →
        p ∈ plan.authorization.profile_refs ∧ p ∈ run.authorization_ceiling.profile_refs ∧
        p ∈ run.configuration_snapshot.configuration.rulebook.group group ∧
        permitsStage plan.authorization rule_id stage ∧
        ∃ rule ∈ run.configuration_snapshot.configuration.rulebook.rules,
          rule.id = rule_id ∧ usesGroup rule group stage) ∧
      ∀ wide, Widened L run.authorization_ceiling wide →
        authorize L wide.toAuthorization wide.toAuthorization = .ok () →
        validatePlan L plan.base wide.toAuthorization = .ok () ∧
        ∃ binding', resolveBinding L (run.withCeiling wide) plan = .ok binding' ∧
          ∀ rule_id group p stage, binding.GrantsAt rule_id group p stage →
            binding'.GrantsAt rule_id group p stage) ∧
    (∀ a b c policy config, validateAuthorization L a b policy config = .ok () →
      validateAuthorization L b c policy config = .ok () → validateAuthorization L a c policy config = .ok ()) ∧
    (∀ a b c, authorize L a b = .ok () → authorize L b c = .ok () → authorize L a c = .ok ()) ∧
    (∀ a narrow wide policy config, Widened L narrow wide →
      validateAuthorization L a narrow policy config = .ok () →
      validateAuthorization L a wide policy config = .ok ()) ∧
    ∀ a narrow wide, Widened L narrow wide → authorize L wide.toAuthorization wide.toAuthorization = .ok () →
      authorize L a narrow.toAuthorization = .ok () → authorize L a wide.toAuthorization = .ok () := by
  refine ⟨fun run plan binding hv hr => ?_, fun a b c policy config hab hbc => ?_,
    fun a b c hab hbc => authorize_ok.mpr ((authorize_ok.mp hab).trans (authorize_ok.mp hbc)),
    fun a narrow wide policy config hw h => validateAuthorization_widened h hw,
    fun a narrow wide hw hself h => authorize_widened h hw hself⟩
  · obtain ⟨hresolves, hb⟩ := resolveBinding_ok.mp hr
    refine ⟨confined_of_accepted hv hr,
      fun rule_id group p stage hg => (grantsAt_iff hresolves hb).mp hg, fun wide hw hself => ?_⟩
    have hwide := hresolves.widened hw.toNarrower
    refine ⟨validatePlan_widened hv hw hself, _, resolveBinding_ok.mpr ⟨hwide, rfl⟩,
      fun rule_id group p stage hg => ?_⟩
    obtain ⟨hplan, hceiling, hrest⟩ := (grantsAt_iff hresolves hb).mp hg
    exact (grantsAt_iff hwide rfl).mpr ⟨hplan, hw.profile_refs hceiling, hrest⟩
  · obtain ⟨hc, hn⟩ := validateAuthorization_ok.mp hab
    obtain ⟨-, hn'⟩ := validateAuthorization_ok.mp hbc
    exact validateAuthorization_ok.mpr ⟨hc, hn.trans hn'⟩

-- A sample

namespace ConfinedSample

def numbers : Resources.Library where
  decimal text :=
    if text = "3" then some (.finite 3) else if text = "5" then some (.finite 5) else none
  urlsplit _ := none
  isspace _ := false
  digest _ := ""

def library : Library where
  letters := Routing.Sample.library
  numbers := numbers
  ceiling_digest c := c.budget_ref
  rulebook_digest _ := "r"

def rule : Rule where
  id := "r"
  priority := 0
  when := ⟨.worker, none, none, none, none, [], []⟩
  eligible_groups := ["g"]
  capabilities_all := ["c"]
  quality_escalation_groups := ["h"]
  profile_preferences := []
  independence := []
  reroute := .withinApprovedSet
  lead_reserve_access := none

def rulebook : RulebookDocument where
  id := "b"
  revision := 1
  max_quality_repair_rounds := 1
  profile_groups := .ofList [("g", [⟨"p", 1⟩, ⟨"q", 1⟩]), ("h", [⟨"p", 1⟩])]
  resource_policy := ⟨[.leadFeedback, .requiredReviewRepairAndCriticalPath, .worker,
    .optionalAdviser], [.preferenceBand, .uncertaintyBand, .bottleneckQuotaPressure,
    .incrementalCashEstimate, .completionTimeEstimate, .profileId], none, some "b"⟩
  rules := [rule]

def policy : ExecutionPolicy where
  id := "e"
  revision := 1
  digest := "e"
  project_id := "j"
  configuration_digest := "c"
  registered_by := "o"
  constraints := ⟨[⟨"p", 1⟩, ⟨"q", 1⟩], ["ch"], ["t"], ["d"], ["c"]⟩
  risk_policy := ⟨.ofList [("standard", .T1), ("critical", .T3)], []⟩
  reserved_output_tokens := 1
  max_context_tokens := 9
  validation := some ⟨["k"], "independent_review"⟩

def ceiling : AuthorizationV2 where
  profile_refs := [⟨"p", 1⟩, ⟨"q", 1⟩]
  read_paths := ["s"]
  write_paths := ["s"]
  budget_ref := "b"
  checks := ["k", "independent_review"]
  delivery := .none
  target_branch := "m"
  channel_ids := ["ch"]
  tools := ["t"]
  data_destinations := ["d"]
  required_capabilities := ["c"]
  currency_limits := .ofList [("USD", "5")]
  max_attempt_duration_seconds := 9
  max_quality_repair_rounds := 1
  stage_permissions := .ofList [("r", ⟨true, [0]⟩)]

def proposed : AuthorizationV2 :=
  { ceiling with
    profile_refs := [⟨"p", 1⟩]
    read_paths := ["s/a"]
    write_paths := ["s/a"]
    currency_limits := .ofList [("USD", "3")] }

def task : PlanTaskV2 where
  id := "t"
  revision := 1
  role := .worker
  readiness := .ready
  complexity := .T1
  risk := .standard
  paths := ["s/a"]
  depends_on := []
  acceptance := ["a"]
  required := true
  purpose := none
  domains := []
  required_capabilities := []
  tools := ["t"]
  context_tokens := 1
  duration_seconds := 5

def plan : PlanV2 := ⟨"p", proposed, [task]⟩

def run : RunV2 where
  execution_policy_snapshot := policy
  configuration_snapshot := ⟨"c", rulebook, [⟨"b", .ofList [("USD", some "5")], some 9⟩], [⟨"p", 1⟩, ⟨"q", 1⟩]⟩
  authorization_ceiling := ceiling

def wide : AuthorizationV2 := { ceiling with read_paths := ["s", "u"] }

theorem widened : Widened library ceiling wide where
  toNarrower := { Narrower.refl (L := library) ceiling with }
  read_paths := rootsWithin_of_subset (by decide)
  write_paths := rootsWithin_of_subset (List.Subset.refl _)
  profile_refs := List.Subset.refl _
  delivery := .inl rfl
  checks _ := Iff.rfl
  budget_ref := rfl
  target_branch := rfl

theorem accepted : (validatePlan library plan.base ceiling.toAuthorization).isOk = true ∧
    (resolveBinding library run plan).isOk = true ∧
    (authorize library wide.toAuthorization wide.toAuthorization).isOk = true ∧
    (authorize library proposed.toAuthorization ceiling.toAuthorization).isOk = true ∧
    (authorize library ceiling.toAuthorization ceiling.toAuthorization).isOk = true ∧
    (validateAuthorization library proposed ceiling policy run.configuration_snapshot.configuration).isOk = true ∧
    (validateAuthorization library ceiling ceiling policy
      run.configuration_snapshot.configuration).isOk = true := by
  decide +kernel

end ConfinedSample

open ConfinedSample in
theorem authority_confined_sample : (Confined library run proposed ∧
      ∃ binding, resolveBinding library (run.withCeiling wide) plan = .ok binding) ∧
    validateAuthorization library proposed ceiling policy run.configuration_snapshot.configuration = .ok () ∧
    authorize library proposed.toAuthorization ceiling.toAuthorization = .ok () ∧
    validateAuthorization library proposed wide policy run.configuration_snapshot.configuration = .ok () ∧
    authorize library proposed.toAuthorization wide.toAuthorization = .ok () := by
  obtain ⟨hv, hr, hself, hauthorize, hceiling, hvalidate, hceiling'⟩ := accepted
  obtain ⟨⟨⟩, hv⟩ := ok_of_isOk hv
  obtain ⟨binding, hb⟩ := ok_of_isOk hr
  obtain ⟨⟨⟩, hself⟩ := ok_of_isOk hself
  obtain ⟨⟨⟩, hauthorize⟩ := ok_of_isOk hauthorize
  obtain ⟨⟨⟩, hceiling⟩ := ok_of_isOk hceiling
  obtain ⟨⟨⟩, hvalidate⟩ := ok_of_isOk hvalidate
  obtain ⟨⟨⟩, hceiling'⟩ := ok_of_isOk hceiling'
  obtain ⟨hrun, htrans, htrans', hwide, hwide'⟩ := authority_confined library
  obtain ⟨hconfined, -, hwidened⟩ := hrun run plan binding hv hb
  obtain ⟨-, binding', hb', -⟩ := hwidened wide widened hself
  exact ⟨⟨hconfined, binding', hb'⟩, htrans _ _ _ _ _ hvalidate hceiling', htrans' _ _ _ hauthorize hceiling,
    hwide _ _ _ _ _ widened hvalidate, hwide' _ _ _ widened hself hauthorize⟩


end Karajan.Planner
