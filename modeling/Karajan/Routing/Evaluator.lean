import Karajan.Routing.Ranking

/-!
# Routing a task

Three evaluations share their checks. A route considers every profile of the
stage and ranks those that nothing stands against; a reserved profile is checked
alone, with its quota or without; a membership is decided by the task and the
policy, without any capacity.
-/

namespace Karajan.Routing

open Capacity (reasonIf)
open Execution (Role)
open Check Listing

-- Validation

def forbiddenKeys : List String :=
  ["api_key", "apikey", "access_token", "refresh_token", "authorization", "password",
    "client_secret", "secret", "token", "env", "environment", "headers"]

def forbiddenEndings : List String :=
  ["_api_key", "_auth_token", "_access_token", "_refresh_token", "_client_secret"]

def credentialKey (L : Library) (key : String) : Bool :=
  let name := (L.lower key).toList.map fun c => if c = '-' then '_' else c
  forbiddenKeys.any (·.toList = name) || forbiddenEndings.any fun ending => ending.toList <:+ name

mutual

def containsCredential (L : Library) : Json → Bool
  | .object fields => fieldsContainCredential L fields
  | .list items => itemsContainCredential L items
  | _ => false

def itemsContainCredential (L : Library) : List Json → Bool
  | [] => false
  | item :: rest => containsCredential L item || itemsContainCredential L rest

def fieldsContainCredential (L : Library) : List (String × Json) → Bool
  | [] => false
  | (key, item) :: rest =>
    credentialKey L key || containsCredential L item || fieldsContainCredential L rest

end

def unique [DecidableEq κ] (rows : List α) (key : α → κ) : Except RoutingError Unit :=
  ensure (decide (rows.map key).Nodup) .snapshotIdentityConflict

section
variable (L : Library)

def validateProfile (registered : RegisteredProfile) : Except RoutingError Unit := do
  ensure (!registered.profile.any fun profile =>
    containsCredential L (.object profile.binding.native_settings)) .credentialValueForbidden
  unique registered.capability_evidence CapabilityEvidence.capability
  unique registered.quota_pool_refs id

def validateResources (policy : PolicySnapshot) : Except RoutingError Unit := do
  let resources := policy.resources
  unique resources.accounts Account.id
  unique resources.channels Channel.id
  unique resources.quota_pools QuotaPool.id
  unique resources.budgets Budget.id
  unique resources.profiles RegisteredProfile.toProfileRef
  unique policy.profile_facts ProfileFacts.profile

def validateCapacity (capacity : CapacitySnapshot) : Except RoutingError Unit := do
  unique capacity.accounts AccountState.id
  unique capacity.pools PoolState.id
  unique capacity.estimates Estimate.profile
  let _ ← each (fun estimate => unique estimate.demand Demand.pool_id) capacity.estimates

def validate (task : TaskSnapshot) (policy : PolicySnapshot)
    (capacity : Option CapacitySnapshot) : Except RoutingError Unit := do
  validateResources policy
  if let some capacity := capacity then validateCapacity capacity
  let _ ← each (validateProfile L) policy.resources.profiles
  validateClassification L task.toTaskClassification policy.risk_policy

-- Stages

/-- What a quality stage is refused with, given a profile that failed before. -/
def qualityRefusal (task : TaskSnapshot) (doc : Rulebook) (previous : ProfileRef) : Option Refusal :=
  if previous ∉ task.authorization.profile_refs then some .previousProfileNotAuthorized
  else if min task.authorization.max_quality_repair_rounds doc.max_quality_repair_rounds ≤
      task.quality_repair_rounds_used then some .qualityRepairLimitReached
  else if task.quality_stage_index ∉ task.authorization.approved_quality_stage_indices then
    some .qualityStageNotAuthorized
  else if task.quality_repair_rounds_used < task.quality_stage_index then
    some .qualityStageNotReached
  else none

def stageRefusal (task : TaskSnapshot) (doc : Rulebook) : Option Refusal :=
  if task.stage ∉ task.authorization.allowed_stages then some .stageNotAuthorized
  else match task.stage with
  | .normal => none
  | .quality =>
    if task.failure_reason ≠ some "QUALITY_FAILED" then some .qualityFailureRequired
    else match task.previous_profile with
    | none => some .qualityFailureRequired
    | some previous => qualityRefusal task doc previous

/-- The groups of a stage: those of the rule, or the one a quality stage escalates to. -/
def stageGroups (task : TaskSnapshot) (rule : Rule) : List String :=
  match task.stage with
  | .normal => rule.eligible_groups
  | .quality => (rule.quality_escalation_groups.drop task.quality_stage_index).take 1

-- Members

structure ResolvedGroup where
  id : String
  profiles : List ProfileRef

structure Members where
  reason_codes : List Refusal
  effective_class : Option Class
  rule_id : Option String
  matching_rules : List MatchingRule
  resolved_groups : List ResolvedGroup
  candidates : List Candidate

def Members.of (selection : Selection) : Members :=
  ⟨selection.reason_codes, selection.effective_class, selection.rule_id, selection.matching_rules, [], []⟩

/-- Some group of the stage has the profile, and it was approved for that group. -/
def groupApproved (key : ProfileRef) (task : TaskSnapshot) (doc : Rulebook) (groups : List String) : Bool :=
  groups.any fun group =>
    key ∈ (task.authorization.approved_groups.get? group).getD [] && key ∈ doc.group group

def memberCandidate (task : TaskSnapshot) (policy : PolicySnapshot) (doc : Rulebook)
    (as_of : Rat) (rule : Rule) (effective : Class) (groups : List String) (key : ProfileRef) : Candidate :=
  ((profileChecks L key task policy as_of rule effective).refuse
    (reasonIf (!groupApproved key task doc groups) .groupProfileNotApproved)).settle

def noneEligible (candidates : List Candidate) (listed : List ProfileRef) : List Refusal :=
  if candidates.any Candidate.eligible then []
  else [if listed.isEmpty then .noStageCandidate else .noEligibleProfile]

/-- The static checks of every profile of the stage, or of the one that is reserved. -/
def membership (task : TaskSnapshot) (policy : PolicySnapshot) (doc : Rulebook)
    (as_of : Rat) (reserved_profile : Option ProfileRef) : Members × Option Rule :=
  let selection := selectCompiledRule L task.toTaskClassification doc policy.risk_policy
  let report := Members.of selection
  match selection.reason_codes, selection.effective_class, selection.rule with
  | [], some effective, some rule =>
    match stageRefusal task doc with
    | some refusal => ({ report with reason_codes := [refusal] }, none)
    | none =>
      let groups := stageGroups task rule
      let report := { report with
        resolved_groups := groups.map fun group => ⟨group, doc.group group⟩ }
      let refs := groups.flatMap doc.group
      if reserved_profile.any (· ∉ refs) then
        ({ report with reason_codes := [.reservedProfileNotStageCandidate] }, none)
      else
        let candidates := (reserved_profile.elim (sortedSet refs) ([·])).map
          (memberCandidate L task policy doc as_of rule effective groups)
        ({ report with candidates := candidates, reason_codes := noneEligible candidates refs },
          some rule)
  | _, _, _ => (report, none)

structure MembershipReport extends Members where
  eligible_profiles : List ProfileRef

def evaluateProfileMembership (task : TaskSnapshot) (policy : PolicySnapshot)
    (as_of : Rat) : Except RoutingError MembershipReport := do
  let compiled ← compileRulebook policy.rulebook
  validate L task policy none
  let members := (membership L task policy compiled.document as_of none).1
  return { members with
    eligible_profiles := (members.candidates.filter Candidate.eligible).map Candidate.profile }

-- Routes

structure Report extends Members where
  selected_profile : Option ProfileRef
  cash_sort : CashSort

/-- What the capacity adds to a candidate: the quota is left out of a reservation that is held. -/
def checkCandidate (task : TaskSnapshot) (policy : PolicySnapshot)
    (capacity : CapacitySnapshot) (rule : Rule) (reserved revalidate_reserved_quota : Bool)
    (row : Candidate) : Candidate :=
  let row := if !reserved || revalidate_reserved_quota then
      checkQuota row task policy capacity rule
    else checkReservedInputs row task policy capacity rule
  (checkCash L row task policy capacity).settle

def CashSort.notEvaluated : CashSort := ⟨.notEvaluated, [], []⟩

def ruleReport (task : TaskSnapshot) (policy : PolicySnapshot)
    (capacity : CapacitySnapshot) (reserved_profile : Option ProfileRef)
    (revalidate_reserved_quota : Bool) (members : Members) (rule : Rule) : Report :=
  let checked := members.candidates.map
    (checkCandidate L task policy capacity rule reserved_profile.isSome revalidate_reserved_quota)
  let (candidates, eligible, sort) := match reserved_profile with
    | none => rank checked rule policy capacity
    | some _ =>
      (checked, (checked.filter Candidate.eligible).map Candidate.profile, CashSort.notEvaluated)
  { members with
    candidates := candidates
    reason_codes := if eligible.isEmpty then
        [if candidates.isEmpty then .noStageCandidate else .noEligibleProfile] else []
    selected_profile := eligible.head?
    cash_sort := sort }

def reportOf (task : TaskSnapshot) (policy : PolicySnapshot)
    (capacity : CapacitySnapshot) (reserved_profile : Option ProfileRef)
    (revalidate_reserved_quota : Bool) (found : Members × Option Rule) : Report :=
  match found.2 with
  | none => { found.1 with selected_profile := none, cash_sort := .notEvaluated }
  | some rule =>
    ruleReport L task policy capacity reserved_profile revalidate_reserved_quota found.1 rule

def evaluate (task : TaskSnapshot) (policy : PolicySnapshot)
    (capacity : CapacitySnapshot) (reserved_profile : Option ProfileRef)
    (revalidate_reserved_quota : Bool) : Except RoutingError Report := do
  let compiled ← compileRulebook policy.rulebook
  validate L task policy (some capacity)
  let found := membership L task policy compiled.document capacity.as_of reserved_profile
  return reportOf L task policy capacity reserved_profile revalidate_reserved_quota found

def evaluateRoute (task : TaskSnapshot) (policy : PolicySnapshot)
    (capacity : CapacitySnapshot) : Except RoutingError Report :=
  evaluate L task policy capacity none false

def evaluateReservedProfile (task : TaskSnapshot) (policy : PolicySnapshot)
    (capacity : CapacitySnapshot) (profile_ref : ProfileRef) (revalidate_quota : Bool) :
    Except RoutingError Report :=
  evaluate L task policy capacity (some profile_ref) revalidate_quota

end

-- What stands against a candidate

open Capacity (reasonIf reasonIf_eq_nil)
open Check Listing

variable {row : Candidate}

-- Rows

namespace Candidate

@[simp] theorem new_profile : (new key).profile = key := rfl
@[simp] theorem new_codes : (new key).reason_codes = [] := rfl

@[simp] theorem refuse_profile : (row.refuse reasons).profile = row.profile := rfl
@[simp] theorem refuse_codes :
    (row.refuse reasons).reason_codes = row.reason_codes ++ reasons.map Reason.text := rfl
@[simp] theorem refuse_evidence :
    (row.refuse reasons).qualification_evidence = row.qualification_evidence := rfl

@[simp] theorem settle_profile : row.settle.profile = row.profile := rfl
@[simp] theorem settle_codes : row.settle.reason_codes = sortedSet row.reason_codes := rfl
@[simp] theorem settle_evidence :
    row.settle.qualification_evidence = row.qualification_evidence := rfl

@[simp] theorem settle_eligible : row.settle.eligible = true ↔ row.reason_codes = [] := by
  simp [settle, List.isEmpty_iff]

end Candidate

-- The static checks

def staticReasons (L : Library) (task : TaskSnapshot) (policy : PolicySnapshot) (doc : Rulebook)
    (as_of : Rat) (rule : Rule) (effective : Class) (groups : List String) (key : ProfileRef) : List Reason :=
  approvalReasons key task policy ++
  (match policy.resources.bound? key with
  | none => [.profileBindingMissing]
  | some (registered, profile) =>
    boundReasons L key task policy as_of rule effective registered profile) ++
  reasonIf (!groupApproved key task doc groups) .groupProfileNotApproved

@[simp] theorem profileChecks_profile :
    (profileChecks L key task policy as_of rule effective).profile = key := by
  unfold profileChecks
  cases policy.resources.bound? key <;> rfl

theorem profileChecks_evidence (h : policy.resources.bound? key = some x) :
    (profileChecks L key task policy as_of rule effective).qualification_evidence = policy.facts? key := by
  simp [profileChecks, h]

@[simp] theorem memberCandidate_profile :
    (memberCandidate L task policy doc as_of rule effective groups key).profile = key := by
  simp [memberCandidate]

theorem memberCandidate_evidence (h : policy.resources.bound? key = some x) :
    (memberCandidate L task policy doc as_of rule effective groups key).qualification_evidence =
      policy.facts? key := by
  simp [memberCandidate, profileChecks_evidence h]

theorem memberCandidate_codes :
    (memberCandidate L task policy doc as_of rule effective groups key).reason_codes = sortedSet
      ((staticReasons L task policy doc as_of rule effective groups key).map Reason.text) := by
  unfold memberCandidate profileChecks staticReasons
  cases policy.resources.bound? key <;> simp

theorem memberCandidate_eligible :
    (memberCandidate L task policy doc as_of rule effective groups key).eligible = true ↔
      staticReasons L task policy doc as_of rule effective groups key = [] := by
  unfold memberCandidate profileChecks staticReasons
  cases policy.resources.bound? key <;> simp

-- The checks against the capacity

def poolReasons (task : TaskSnapshot) (policy : PolicySnapshot) (capacity : CapacitySnapshot)
    (account : AccountState) (registered : RegisteredProfile) (account_id : String)
    (estimate : Estimate) (lead : Bool) (revalidate : Bool) : List Reason :=
  vectorReasons registered.quota_pool_refs estimate ++
  (registered.quota_pool_refs.insertionSort (· ≤ ·)).flatMap fun pool_id =>
    (checkPool task policy capacity account account_id estimate lead revalidate pool_id).reasons

def resourceReasons (task : TaskSnapshot) (policy : PolicySnapshot) (capacity : CapacitySnapshot)
    (rule : Rule) (revalidate : Bool) (key : ProfileRef) : List Reason :=
  match policy.resources.bound? key with
  | none => []
  | some (registered, profile) =>
    let account_id := profile.binding.account_id
    match capacity.account? account_id with
    | none => [.capacityAccountMissing]
    | some account =>
      let lead := leadAccess task rule
      accountReasons account account_id task ++
      (if revalidate then liveAccountReasons account capacity.as_of lead else []) ++
      match capacity.estimate? key with
      | none => [.resourceEstimateMissing]
      | some estimate =>
        poolReasons task policy capacity account registered account_id estimate lead revalidate

@[simp] theorem checkResources_profile :
    (checkResources row task policy capacity rule revalidate).profile = row.profile := by
  unfold checkResources checkDemand
  grind [Candidate.refuse_profile]

@[simp] theorem checkResources_evidence :
    (checkResources row task policy capacity rule revalidate).qualification_evidence =
      row.qualification_evidence := by
  unfold checkResources checkDemand
  grind [Candidate.refuse_evidence]

theorem checkResources_codes :
    (checkResources row task policy capacity rule revalidate).reason_codes = row.reason_codes ++
      (resourceReasons task policy capacity rule revalidate row.profile).map Reason.text := by
  unfold checkResources resourceReasons
  cases policy.resources.bound? row.profile with
  | none => simp
  | some bound =>
    obtain ⟨registered, profile⟩ := bound
    cases hacc : capacity.account? profile.binding.account_id with
    | none => simp [hacc]
    | some account =>
      cases hest : capacity.estimate? row.profile with
      | none => simp [hacc, hest]
      | some estimate =>
        simp [hacc, hest, checkDemand, poolReasons, List.flatMap_map]

-- Cash

def paymentReasons (L : Library) (task : TaskSnapshot) (policy : PolicySnapshot)
    (capacity : CapacitySnapshot) (key : ProfileRef) : List Reason :=
  match policy.resources.bound? key with
  | none => []
  | some (registered, profile) =>
    if profile.binding.billing_path = .subscriptionOnly then []
    else
      let profile_hash := L.digest profile.document
      boundedReasons (policy.facts? key) profile ++
      boundedEvidenceReasons registered profile profile_hash ++
      match (capacity.estimate? key).bind Estimate.price with
      | none => [.priceMissing]
      | some price => cashReasons task policy capacity profile profile_hash price

@[simp] theorem checkCash_profile :
    (checkCash L row task policy capacity).profile = row.profile := by
  unfold checkCash
  grind [Candidate.refuse_profile]

theorem checkCash_codes (h : ∀ x, policy.resources.bound? row.profile = some x →
    row.qualification_evidence = policy.facts? row.profile) :
    (checkCash L row task policy capacity).reason_codes = row.reason_codes ++
      (paymentReasons L task policy capacity row.profile).map Reason.text := by
  unfold checkCash paymentReasons
  cases hb : policy.resources.bound? row.profile with
  | none => simp
  | some bound =>
    obtain ⟨registered, profile⟩ := bound
    rw [hb] at h
    by_cases hs : profile.binding.billing_path = .subscriptionOnly
    · simp [hs]
    · cases hp : (capacity.estimate? row.profile).bind Estimate.price with
      | none | some price => simp [hs, hp, h _ rfl]

-- All of them

section
variable (L : Library) (task : TaskSnapshot) (policy : PolicySnapshot) (capacity : CapacitySnapshot)
  (rule : Rule) (effective : Class) (revalidate : Bool) (key : ProfileRef)

def candidateReasons : List Reason :=
  staticReasons L task policy policy.rulebook capacity.as_of rule effective
    (stageGroups task rule) key ++
  resourceReasons task policy capacity rule revalidate key ++
  paymentReasons L task policy capacity key

def checkedCandidate : Candidate :=
  let row := memberCandidate L task policy policy.rulebook capacity.as_of rule effective
    (stageGroups task rule) key
  (checkCash L (checkResources row task policy capacity rule revalidate) task policy
    capacity).settle

end

@[simp] theorem checkedCandidate_profile :
    (checkedCandidate L task policy capacity rule effective revalidate key).profile = key := by
  simp [checkedCandidate]

theorem checkedCandidate_added :
    (checkedCandidate L task policy capacity rule effective revalidate key).reason_codes =
      sortedSet (sortedSet ((staticReasons L task policy policy.rulebook capacity.as_of rule
          effective (stageGroups task rule) key).map Reason.text) ++
        (resourceReasons task policy capacity rule revalidate key).map Reason.text ++
        (paymentReasons L task policy capacity key).map Reason.text) := by
  unfold checkedCandidate
  rw [Candidate.settle_codes, checkCash_codes, checkResources_codes, memberCandidate_codes]
  · simp
  · intro x hx
    simp only [checkResources_profile, memberCandidate_profile] at hx ⊢
    rw [checkResources_evidence, memberCandidate_evidence hx]

theorem checkedCandidate_codes :
    (checkedCandidate L task policy capacity rule effective revalidate key).reason_codes =
      sortedSet ((candidateReasons L task policy capacity rule effective revalidate key).map Reason.text) := by
  rw [checkedCandidate_added]
  exact sortedSet_congr fun code => by simp [candidateReasons]

theorem checkedCandidate_no_codes :
    (checkedCandidate L task policy capacity rule effective revalidate key).reason_codes = [] ↔
      candidateReasons L task policy capacity rule effective revalidate key = [] := by
  rw [checkedCandidate_codes, sortedSet_eq_nil, List.map_eq_nil_iff]

theorem checkedCandidate_eligible :
    (checkedCandidate L task policy capacity rule effective revalidate key).eligible = true ↔
      candidateReasons L task policy capacity rule effective revalidate key = [] := by
  rw [← checkedCandidate_no_codes]
  simp [checkedCandidate]

end Karajan.Routing
