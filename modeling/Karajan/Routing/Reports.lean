import Karajan.Routing.Evaluator

/-!
# Reading a report

A report is one of snapshots that are valid. It has candidates where a rule was
selected and its stage is open, and who is eligible among them, is selected or
is a member is read off what stands against the candidate.
-/

namespace Karajan.Routing

open List Check Listing

section
variable {reserved : Option ProfileRef}

-- Open stages

/-- The task is routed at the class by the rule, and its stage is open. -/
structure Opens (L : Library) (task : TaskSnapshot) (policy : PolicySnapshot) (effective : Class)
    (rule : Rule) : Prop where
  clear : (selectCompiledRule L task.toTaskClassification policy.rulebook
    policy.risk_policy).reason_codes = []
  at_class : (selectCompiledRule L task.toTaskClassification policy.rulebook
    policy.risk_policy).effective_class = some effective
  by_rule : (selectCompiledRule L task.toTaskClassification policy.rulebook
    policy.risk_policy).rule = some rule
  open_stage : stageRefusal task policy.rulebook = none

theorem Opens.unique (h : Opens L task policy effective rule)
    (h' : Opens L task policy effective' rule') : effective = effective' ∧ rule = rule' :=
  ⟨Option.some.inj (h.at_class.symm.trans h'.at_class), Option.some.inj (h.by_rule.symm.trans h'.by_rule)⟩

def stageRefs (task : TaskSnapshot) (policy : PolicySnapshot) (rule : Rule) : List ProfileRef :=
  (stageGroups task rule).flatMap policy.rulebook.group

/-- The profiles a report is about: those of the stage, or the one that is reserved. -/
def consideredRefs (task : TaskSnapshot) (policy : PolicySnapshot) (rule : Rule) :
    Option ProfileRef → List ProfileRef
  | none => sortedSet (stageRefs task policy rule)
  | some p => [p]

theorem membership_open (as_of : Rat) (h : Opens L task policy effective rule)
    (hp : ∀ p, reserved = some p → p ∈ stageRefs task policy rule) :
    (membership L task policy policy.rulebook as_of reserved).2 = some rule ∧
      (membership L task policy policy.rulebook as_of reserved).1.candidates =
        (consideredRefs task policy rule reserved).map (memberCandidate L task policy policy.rulebook
          as_of rule effective (stageGroups task rule)) := by
  have hin : reserved.any (· ∉ (stageGroups task rule).flatMap policy.rulebook.group) = false := by
    cases reserved with
    | none => rfl
    | some p =>
      have hstage := hp p rfl
      simpa [stageRefs] using hstage
  simp only [membership, h.clear, h.at_class, h.by_rule, h.open_stage, hin]
  cases reserved <;> exact ⟨rfl, rfl⟩

theorem membership_closed (as_of : Rat) (h : ∀ effective rule, Opens L task policy effective rule →
      ∃ p, reserved = some p ∧ p ∉ stageRefs task policy rule) :
    (membership L task policy policy.rulebook as_of reserved).2 = none ∧
      (membership L task policy policy.rulebook as_of reserved).1.candidates = [] := by
  cases hclear : (selectCompiledRule L task.toTaskClassification policy.rulebook
      policy.risk_policy).reason_codes with
  | cons => simp [membership, hclear, Members.of]
  | nil =>
    cases hclass : (selectCompiledRule L task.toTaskClassification policy.rulebook
        policy.risk_policy).effective_class with
    | none => simp [membership, hclear, hclass, Members.of]
    | some effective =>
      cases hrule : (selectCompiledRule L task.toTaskClassification policy.rulebook
          policy.risk_policy).rule with
      | none => simp [membership, hclear, hclass, hrule, Members.of]
      | some rule =>
        cases hstage : stageRefusal task policy.rulebook with
        | some refusal => simp [membership, hclear, hclass, hrule, hstage, Members.of]
        | none =>
          obtain ⟨p, rfl, hp⟩ := h effective rule ⟨hclear, hclass, hrule, hstage⟩
          have hout : (some p).any (· ∉ (stageGroups task rule).flatMap policy.rulebook.group) =
              true := by simpa [stageRefs] using hp
          simp only [membership, hclear, hclass, hrule, hstage, hout]
          exact ⟨rfl, rfl⟩

-- Valid snapshots

structure Valid (L : Library) (task : TaskSnapshot) (policy : PolicySnapshot)
    (capacity : Option CapacitySnapshot) : Prop where
  compiled : checkRulebook policy.rulebook = .ok ()
  validated : validate L task policy capacity = .ok ()

theorem compileRulebook_ok : compileRulebook doc = .ok compiled ↔ checkRulebook doc = .ok () ∧
    compiled = ⟨doc, compileIssues doc.rules,
      (compileWarnings doc).map fun name => s!"profile_groups.{name}"⟩ := by
  simp only [compileRulebook, bind_ok, pure_ok]
  constructor
  · rintro ⟨⟨⟩, hc, rfl⟩
    exact ⟨hc, rfl⟩
  · rintro ⟨hc, rfl⟩
    exact ⟨(), hc, rfl⟩

theorem evaluate_ok : evaluate L task policy capacity reserved revalidate = .ok report ↔
    Valid L task policy (some capacity) ∧ report = reportOf L task policy capacity reserved
      revalidate (membership L task policy policy.rulebook capacity.as_of reserved) := by
  simp only [evaluate, bind_ok, compileRulebook_ok, pure_ok]
  constructor
  · rintro ⟨compiled, ⟨hc, rfl⟩, ⟨⟩, hv, rfl⟩
    exact ⟨⟨hc, hv⟩, rfl⟩
  · rintro ⟨hv, rfl⟩
    exact ⟨_, ⟨hv.compiled, rfl⟩, (), hv.validated, rfl⟩

theorem Valid.uncapped (h : Valid L task policy (some capacity)) : Valid L task policy none := by
  refine ⟨h.compiled, ?_⟩
  have hv := h.validated
  simp only [validate, bind_ok] at hv ⊢
  obtain ⟨⟨⟩, hresources, ⟨⟩, -, hrest⟩ := hv
  exact ⟨(), hresources, hrest⟩

-- Who is eligible

def Report.Eligible (report : Report) (p : ProfileRef) : Prop :=
  ∃ c ∈ report.candidates, c.profile = p ∧ c.eligible = true

/-- The profile is of an open stage, and nothing stands against it. -/
def Allowed (L : Library) (task : TaskSnapshot) (policy : PolicySnapshot)
    (capacity : CapacitySnapshot) (revalidate : Bool) (p : ProfileRef) : Prop :=
  ∃ effective rule, Opens L task policy effective rule ∧ p ∈ stageRefs task policy rule ∧
    candidateReasons L task policy capacity rule effective revalidate p = []

theorem checkCandidate_member : checkCandidate L task policy capacity rule reserved.isSome revalidate
      (memberCandidate L task policy policy.rulebook capacity.as_of rule effective (stageGroups task rule) key) =
    checkedCandidate L task policy capacity rule effective (reserved.isNone || revalidate) key := by
  cases reserved <;> cases revalidate <;> rfl

def checkedCandidates (L : Library) (task : TaskSnapshot) (policy : PolicySnapshot)
    (capacity : CapacitySnapshot) (rule : Rule) (effective : Class) (reserved : Option ProfileRef)
    (revalidate : Bool) : List Candidate :=
  (consideredRefs task policy rule reserved).map
    (checkedCandidate L task policy capacity rule effective (reserved.isNone || revalidate))

theorem checked_open (h : Opens L task policy effective rule)
    (hp : ∀ p, reserved = some p → p ∈ stageRefs task policy rule) :
    (membership L task policy policy.rulebook capacity.as_of reserved).1.candidates.map
        (checkCandidate L task policy capacity rule reserved.isSome revalidate) =
      checkedCandidates L task policy capacity rule effective reserved revalidate := by
  rw [(membership_open capacity.as_of h hp).2, map_map]
  exact map_congr_left fun key _ => checkCandidate_member

theorem no_stage (h : ¬ ∃ effective rule, Opens L task policy effective rule)
    (effective : Class) (rule : Rule) : ¬ Opens L task policy effective rule :=
  fun ho => h ⟨effective, rule, ho⟩

/-- The candidate of a report that stands for a checked one: ranked, but with its codes. -/
def rankedCandidate (rows : List Candidate) (rule : Rule) (policy : PolicySnapshot)
    (capacity : CapacitySnapshot) (row : Candidate) : Candidate :=
  let sort := cashSort rows policy capacity
  withRank (rankedBy sort.effective_candidate_order
    (rows.map (withSortInputs rule capacity sort.mode))) (withSortInputs rule capacity sort.mode row)

theorem rank_candidates (rows : List Candidate) :
    (rank rows rule policy capacity).1 = rows.map (rankedCandidate rows rule policy capacity) := by
  simp [rank, rankedCandidate, Function.comp_def]

@[simp] theorem rankedCandidate_profile :
    (rankedCandidate rows rule policy capacity row).profile = row.profile := rfl
@[simp] theorem rankedCandidate_codes :
    (rankedCandidate rows rule policy capacity row).reason_codes = row.reason_codes := rfl
@[simp] theorem rankedCandidate_eligible :
    (rankedCandidate rows rule policy capacity row).eligible = row.eligible := rfl

section
variable (h : evaluateRoute L task policy capacity = .ok report)
include h

theorem route_open (ho : Opens L task policy effective rule) :
    report.candidates = (rank (checkedCandidates L task policy capacity rule effective none false)
        rule policy capacity).1 ∧
      report.selected_profile = (rank (checkedCandidates L task policy capacity rule effective none
        false) rule policy capacity).2.1.head? ∧
      report.cash_sort = (rank (checkedCandidates L task policy capacity rule effective none
        false) rule policy capacity).2.2 := by
  obtain ⟨-, rfl⟩ := evaluate_ok.mp h
  have hnone : ∀ p, none = some p → p ∈ stageRefs task policy rule := by simp
  have hfound := membership_open capacity.as_of ho hnone
  rw [← checked_open ho hnone]
  simp [reportOf, hfound.1, ruleReport]

theorem route_closed (hclosed : ∀ effective rule, ¬ Opens L task policy effective rule) :
    report.candidates = [] ∧ report.selected_profile = none := by
  obtain ⟨-, rfl⟩ := evaluate_ok.mp h
  have hnowhere : ∀ effective rule, Opens L task policy effective rule →
      ∃ q, none = some q ∧ q ∉ stageRefs task policy rule :=
    fun effective rule ho => absurd ho (hclosed effective rule)
  have hfound := membership_closed capacity.as_of hnowhere
  simp [reportOf, hfound.1, hfound.2]

-- Ranking leaves what was decided as it was

theorem route_candidate (ho : Opens L task policy effective rule) : c ∈ report.candidates ↔
      ∃ key ∈ stageRefs task policy rule, c = rankedCandidate (checkedCandidates L task policy
        capacity rule effective none false) rule policy capacity
          (checkedCandidate L task policy capacity rule effective true key) := by
  rw [(route_open h ho).1, rank_candidates]
  simp [checkedCandidates, consideredRefs, eq_comm]

theorem route_eligible : report.Eligible p ↔ Allowed L task policy capacity true p := by
  by_cases hex : ∃ effective rule, Opens L task policy effective rule
  · obtain ⟨effective, rule, ho⟩ := hex
    constructor
    · rintro ⟨c, hc, rfl, he⟩
      obtain ⟨key, hkey, rfl⟩ := (route_candidate h ho).mp hc
      simp only [rankedCandidate_eligible, checkedCandidate_eligible] at he
      exact ⟨effective, rule, ho, by simpa using hkey, by simpa using he⟩
    · rintro ⟨effective', rule', ho', hp, hnone⟩
      obtain ⟨rfl, rfl⟩ := ho.unique ho'
      refine ⟨_, (route_candidate h ho).mpr ⟨p, hp, rfl⟩, by simp, ?_⟩
      simpa only [rankedCandidate_eligible, checkedCandidate_eligible] using hnone
  · have hclosed := no_stage hex
    constructor
    · rintro ⟨c, hc, -⟩
      rw [(route_closed h hclosed).1] at hc
      simp at hc
    · rintro ⟨effective, rule, ho, -⟩
      exact absurd ho (hclosed effective rule)

theorem route_reasons (ho : Opens L task policy effective rule) (hc : c ∈ report.candidates) :
    code ∈ c.reason_codes ↔ ∃ reason ∈ candidateReasons L task policy capacity rule effective true
      c.profile, reason.text = code := by
  obtain ⟨key, -, rfl⟩ := (route_candidate h ho).mp hc
  simp [checkedCandidate_codes]

end

theorem reserved_selects (h : evaluateReservedProfile L task policy capacity p revalidate = .ok report) :
    report.selected_profile = some p ↔ Allowed L task policy capacity revalidate p := by
  obtain ⟨-, rfl⟩ := evaluate_ok.mp h
  by_cases hex : ∃ effective rule, Opens L task policy effective rule ∧ p ∈ stageRefs task policy rule
  · obtain ⟨effective, rule, ho, hp⟩ := hex
    have hof : ∀ q, some p = some q → q ∈ stageRefs task policy rule := by
      rintro q ⟨⟩
      exact hp
    have hselected : (reportOf L task policy capacity (some p) revalidate (membership L task policy
        policy.rulebook capacity.as_of (some p))).selected_profile =
        (((checkedCandidates L task policy capacity rule effective (some p) revalidate).filter
          Candidate.eligible).map Candidate.profile).head? := by
      rw [← checked_open ho hof]
      simp [reportOf, (membership_open capacity.as_of ho hof).1, ruleReport]
    have hallowed : Allowed L task policy capacity revalidate p ↔
        candidateReasons L task policy capacity rule effective revalidate p = [] := by
      constructor
      · rintro ⟨effective', rule', ho', -, hnone⟩
        obtain ⟨rfl, rfl⟩ := ho.unique ho'
        exact hnone
      · exact fun hnone => ⟨effective, rule, ho, hp, hnone⟩
    rw [hselected, hallowed, ← checkedCandidate_eligible]
    simp only [checkedCandidates, consideredRefs, Option.isNone_some, Bool.false_or, map_cons,
      map_nil, filter_cons, filter_nil]
    split
    case isTrue he => simp [he]
    case isFalse he => simp [he]
  · have houtside : ∀ effective rule, Opens L task policy effective rule →
        ∃ q, some p = some q ∧ q ∉ stageRefs task policy rule :=
      fun effective rule ho => ⟨p, rfl, fun hp => hex ⟨effective, rule, ho, hp⟩⟩
    have hfound := membership_closed capacity.as_of houtside
    have hselected : (reportOf L task policy capacity (some p) revalidate (membership L task policy
        policy.rulebook capacity.as_of (some p))).selected_profile = none := by
      simp [reportOf, hfound.1]
    rw [hselected]
    constructor
    · intro hp
      simp at hp
    · rintro ⟨effective, rule, ho, hp, -⟩
      exact absurd ⟨effective, rule, ho, hp⟩ hex

theorem member_eligible (h : evaluateProfileMembership L task policy as_of = .ok report) :
    p ∈ report.eligible_profiles ↔ ∃ effective rule, Opens L task policy effective rule ∧
      p ∈ stageRefs task policy rule ∧ staticReasons L task policy policy.rulebook as_of rule
        effective (stageGroups task rule) p = [] := by
  simp only [evaluateProfileMembership, bind_ok, pure_ok, compileRulebook_ok] at h
  obtain ⟨compiled, ⟨-, rfl⟩, ⟨⟩, -, rfl⟩ := h
  by_cases hex : ∃ effective rule, Opens L task policy effective rule
  · obtain ⟨effective, rule, ho⟩ := hex
    have hnone : ∀ p, none = some p → p ∈ stageRefs task policy rule := by simp
    have hfound := (membership_open as_of ho hnone).2
    simp only [hfound, consideredRefs, mem_map, mem_filter, mem_sortedSet]
    constructor
    · rintro ⟨c, ⟨⟨key, hkey, rfl⟩, he⟩, rfl⟩
      rw [memberCandidate_profile]
      exact ⟨effective, rule, ho, hkey, memberCandidate_eligible.mp he⟩
    · rintro ⟨effective', rule', ho', hp, hnone⟩
      obtain ⟨rfl, rfl⟩ := ho.unique ho'
      exact ⟨_, ⟨⟨p, hp, rfl⟩, memberCandidate_eligible.mpr hnone⟩, memberCandidate_profile⟩
  · have hclosed := no_stage hex
    have hnowhere : ∀ effective rule, Opens L task policy effective rule →
        ∃ q, none = some q ∧ q ∉ stageRefs task policy rule :=
      fun effective rule ho => absurd ho (hclosed effective rule)
    have hfound := (membership_closed as_of hnowhere).2
    simp only [hfound]
    constructor
    · intro hp
      simp at hp
    · rintro ⟨effective, rule, ho, -⟩
      exact absurd ho (hclosed effective rule)

end

-- A sample

namespace Sample

def digest : Json → String
  | .object ((_, .str text) :: _) => text
  | _ => ""

def library : Library where
  digest := digest
  lower text := String.ofList (text.toList.map Char.toLower)
  upper text := String.ofList (text.toList.map Char.toUpper)
  casefold text := String.ofList (text.toList.map Char.toLower)
  isprintable c := 32 ≤ c.toNat && c.toNat < 127

def profile (id : String) : Profile where
  id := id
  revision := 1
  binding := ⟨"m", "ch", "a", "k", "1", "o", .subscriptionOnly, []⟩
  auth_ref := "s"
  required_permissions := []
  admission_granularity := .attempt
  usage_coverage := .attempt

def evidence (id capability : String) : CapabilityEvidence :=
  ⟨capability, .passed, some id, some "1", some "e", some .fixture⟩

def registered (id : String) : RegisteredProfile where
  id := id
  revision := 1
  profile := some (profile id)
  model_family := none
  max_class := some .T2
  required_isolation := some .toolSandboxed
  enabled := true
  quota_pool_refs := ["u"]
  capability_evidence := ["bounded_code_edit", "controlled_tools", "candidate_capture", "c"].map (evidence id)

def facts (id : String) : ProfileFacts where
  profile := ⟨id, 1⟩
  profile_digest := id
  runtime_version := "1"
  roles := [.worker]
  tools := ["t"]
  context_tokens := some 9
  data_destination := "d"
  budget_enforcement := .unknown
  observed_at := 0
  valid_until := 9

def constraints : HardConstraints := ⟨[⟨"q", 1⟩, ⟨"p", 1⟩], ["ch"], ["t"], ["d"], []⟩

def authorization : Authorization where
  toHardConstraints := constraints
  ceiling_profile_refs := [⟨"q", 1⟩, ⟨"p", 1⟩]
  allowed_stages := [.normal]
  approved_groups := .ofList [("g", [⟨"q", 1⟩, ⟨"p", 1⟩])]
  approved_quality_stage_indices := []
  budget_ref := "b"
  currency_limits := .empty
  max_attempt_duration_seconds := 9
  max_quality_repair_rounds := 1

def task : TaskSnapshot where
  complexity := .T1
  risk := "low"
  paths := ["x", "y"]
  role := .worker
  purpose := none
  readiness := .ready
  domains := []
  authors := []
  required_capabilities := []
  tools := ["t"]
  context_tokens := 1
  reserved_output_tokens := 0
  duration_seconds := 5
  stage := .normal
  quality_stage_index := 0
  failure_reason := none
  previous_profile := none
  quality_repair_rounds_used := 0
  planned_attempt_id := "n"
  planned_context_id := "o"
  authorization := authorization

def rule : Rule where
  id := "r"
  priority := 0
  when := ⟨.worker, none, none, none, none, [], []⟩
  eligible_groups := ["g"]
  capabilities_all := ["c"]
  quality_escalation_groups := []
  profile_preferences := []
  independence := []
  reroute := .withinApprovedSet
  lead_reserve_access := none

def rulebook : Rulebook where
  max_quality_repair_rounds := 1
  profile_groups := .ofList [("g", [⟨"q", 1⟩, ⟨"p", 1⟩])]
  resource_policy :=
    { queue_order :=
        [.leadFeedback, .requiredReviewRepairAndCriticalPath, .worker, .optionalAdviser]
      candidate_order := [.preferenceBand, .uncertaintyBand, .bottleneckQuotaPressure,
        .incrementalCashEstimate, .completionTimeEstimate, .profileId]
      planning_budget_ref := none
      run_budget_ref := none }
  rules := [rule]

def policy : PolicySnapshot where
  rulebook := rulebook
  resources :=
    { accounts := [⟨"a", some "s"⟩]
      channels := [⟨"ch", some "a", some .subscriptionOnly, true⟩]
      profiles := [registered "p", registered "q"]
      quota_pools := [⟨"u", some "a", .service, .requests⟩]
      budgets := [] }
  approved_profile_refs := [⟨"q", 1⟩, ⟨"p", 1⟩]
  profile_facts := [facts "p", facts "q"]
  risk_policy := ⟨.ofList [("low", .T1)], []⟩
  constraints := constraints

def capacityPolicy : Capacity.Policy where
  account_id := "a"
  max_active_attempts := 2
  max_attempt_duration_seconds := 9
  observation_max_age_seconds := 9
  require_official_observation := false
  safety_margin := .empty
  lead_reserve := .empty
  lead_reserved_slots := 0
  conservative_mode := none

def estimate (id : String) : Estimate where
  profile := ⟨id, 1⟩
  demand := [⟨"u", .requests, "w", ⟨"1", 1000000⟩⟩]
  confidence := .known
  completion_seconds := none
  price := none

def capacity : CapacitySnapshot where
  as_of := 1
  accounts := [⟨"a", 1, 1, capacityPolicy, 0, .empty, none, false⟩]
  pools := [
    { id := "u"
      account_id := "a"
      kind := .service
      unit := .requests
      window_kind := .fixed
      window_id := "w"
      reported_remaining := some ⟨"5", 5000000⟩
      reported_limit := some ⟨"9", 9000000⟩
      local_uncovered := ⟨"0", 0⟩
      future_reserved := ⟨"0", 0⟩
      observed_at := 0
      reset_at := none
      source := .official
      confidence := .known }]
  estimates := [estimate "p", estimate "q"]
  budget_remaining := .empty
  fx := none

def finds (routed : TaskSnapshot) (p : ProfileRef) : Bool :=
  ((evaluateRoute library routed policy capacity).toOption.map fun report =>
    report.candidates.any fun c => c.profile = p && c.eligible) = some true

theorem finds_eligible (h : finds routed p = true) :
    ∃ report, evaluateRoute library routed policy capacity = .ok report ∧ report.Eligible p := by
  obtain ⟨report, hroute, hany⟩ := ok_of_map (of_decide_eq_true h)
  obtain ⟨c, hc, heligible⟩ := List.any_eq_true.mp hany
  simp only [Bool.and_eq_true, decide_eq_true_eq] at heligible
  exact ⟨report, hroute, c, hc, heligible.1, heligible.2⟩

end Sample

end Karajan.Routing
