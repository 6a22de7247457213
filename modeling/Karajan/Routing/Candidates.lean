import Karajan.Routing.Selection

/-!
# Candidates

A candidate is a profile with everything that stands against it. Nothing is
left out once something was found, so that a report says all that would have to
change. The checks here read the task and the policy alone.
-/

namespace Karajan.Routing

open Capacity (Quantity QuotaUnit reasonIf)
open Execution (Role)
open Listing

-- Reasons

inductive Reason
  | projectProfileNotApproved
  | projectConstraintProfileDenied
  | runProfileNotApproved
  | runCeilingProfileDenied
  | groupProfileNotApproved
  | profileBindingMissing
  | profileBindingMismatch
  | profileDisabled
  | profileClassInsufficient
  | isolationInsufficient
  | channelAccountBindingInvalid
  | billingPathUnverified
  | dataDestinationNotApproved
  | channelNotAuthorized
  | toolNotAuthorized
  | profileFactsMissing
  | profileFactsStaleOrMismatched
  | roleNotSupported
  | toolsNotSupported
  | contextCapacityInsufficient
  | dataDestinationNotAuthorized
  | capabilityUnqualified (capability : String)
  | authorScopeRequired
  | reviewNotIndependent
  | reviewFamilyNotIndependent
  | capacityAccountMissing
  | capacityPolicyNotCurrent
  | capacityPolicyInvalid
  | concurrencyUnavailable
  | durationLimitExceeded
  | accountCooldown
  | exhaustionRequiresNewObservation
  | resourceEstimateMissing
  | demandVectorIncomplete
  | poolSnapshotMissing (pool_id : String)
  | poolBindingMismatch (pool_id : String)
  | demandWindowMismatch (pool_id : String)
  | demandEstimateInvalid (pool_id : String)
  | poolLimitInconsistent (pool_id : String)
  | quotaInsufficient (pool_id : String)
  | observationStale (pool_id : String)
  | officialObservationRequired (pool_id : String)
  | unknownQuotaNotAuthorized (pool_id : String)
  | conservativeLimitExceeded (pool_id : String)
  | boundedCallsRequired
  | boundedCallsUnqualified
  | priceMissing
  | priceStaleOrMismatched
  | cashUpperBoundUnverified
  | priceEstimateExceedsUpperBound
  | cashBudgetNotAuthorized
  | cashBudgetMissing
  | cashBudgetInsufficient

def Reason.text : Reason → String
  | .projectProfileNotApproved => "PROJECT_PROFILE_NOT_APPROVED"
  | .projectConstraintProfileDenied => "PROJECT_CONSTRAINT_PROFILE_DENIED"
  | .runProfileNotApproved => "RUN_PROFILE_NOT_APPROVED"
  | .runCeilingProfileDenied => "RUN_CEILING_PROFILE_DENIED"
  | .groupProfileNotApproved => "GROUP_PROFILE_NOT_APPROVED"
  | .profileBindingMissing => "PROFILE_BINDING_MISSING"
  | .profileBindingMismatch => "PROFILE_BINDING_MISMATCH"
  | .profileDisabled => "PROFILE_DISABLED"
  | .profileClassInsufficient => "PROFILE_CLASS_INSUFFICIENT"
  | .isolationInsufficient => "ISOLATION_INSUFFICIENT"
  | .channelAccountBindingInvalid => "CHANNEL_ACCOUNT_BINDING_INVALID"
  | .billingPathUnverified => "BILLING_PATH_UNVERIFIED"
  | .dataDestinationNotApproved => "DATA_DESTINATION_NOT_APPROVED"
  | .channelNotAuthorized => "CHANNEL_NOT_AUTHORIZED"
  | .toolNotAuthorized => "TOOL_NOT_AUTHORIZED"
  | .profileFactsMissing => "PROFILE_FACTS_MISSING"
  | .profileFactsStaleOrMismatched => "PROFILE_FACTS_STALE_OR_MISMATCHED"
  | .roleNotSupported => "ROLE_NOT_SUPPORTED"
  | .toolsNotSupported => "TOOLS_NOT_SUPPORTED"
  | .contextCapacityInsufficient => "CONTEXT_CAPACITY_INSUFFICIENT"
  | .dataDestinationNotAuthorized => "DATA_DESTINATION_NOT_AUTHORIZED"
  | .capabilityUnqualified capability => "CAPABILITY_UNQUALIFIED:" ++ capability
  | .authorScopeRequired => "AUTHOR_SCOPE_REQUIRED"
  | .reviewNotIndependent => "REVIEW_NOT_INDEPENDENT"
  | .reviewFamilyNotIndependent => "REVIEW_FAMILY_NOT_INDEPENDENT"
  | .capacityAccountMissing => "CAPACITY_ACCOUNT_MISSING"
  | .capacityPolicyNotCurrent => "CAPACITY_POLICY_NOT_CURRENT"
  | .capacityPolicyInvalid => "CAPACITY_POLICY_INVALID"
  | .concurrencyUnavailable => "CONCURRENCY_UNAVAILABLE"
  | .durationLimitExceeded => "DURATION_LIMIT_EXCEEDED"
  | .accountCooldown => "ACCOUNT_COOLDOWN"
  | .exhaustionRequiresNewObservation => "EXHAUSTION_REQUIRES_NEW_OBSERVATION"
  | .resourceEstimateMissing => "RESOURCE_ESTIMATE_MISSING"
  | .demandVectorIncomplete => "DEMAND_VECTOR_INCOMPLETE"
  | .poolSnapshotMissing pool_id => "POOL_SNAPSHOT_MISSING:" ++ pool_id
  | .poolBindingMismatch pool_id => "POOL_BINDING_MISMATCH:" ++ pool_id
  | .demandWindowMismatch pool_id => "DEMAND_WINDOW_MISMATCH:" ++ pool_id
  | .demandEstimateInvalid pool_id => "DEMAND_ESTIMATE_INVALID:" ++ pool_id
  | .poolLimitInconsistent pool_id => "POOL_LIMIT_INCONSISTENT:" ++ pool_id
  | .quotaInsufficient pool_id => "QUOTA_INSUFFICIENT:" ++ pool_id
  | .observationStale pool_id => "OBSERVATION_STALE:" ++ pool_id
  | .officialObservationRequired pool_id => "OFFICIAL_OBSERVATION_REQUIRED:" ++ pool_id
  | .unknownQuotaNotAuthorized pool_id => "UNKNOWN_QUOTA_NOT_AUTHORIZED:" ++ pool_id
  | .conservativeLimitExceeded pool_id => "CONSERVATIVE_LIMIT_EXCEEDED:" ++ pool_id
  | .boundedCallsRequired => "BOUNDED_CALLS_REQUIRED"
  | .boundedCallsUnqualified => "BOUNDED_CALLS_UNQUALIFIED"
  | .priceMissing => "PRICE_MISSING"
  | .priceStaleOrMismatched => "PRICE_STALE_OR_MISMATCHED"
  | .cashUpperBoundUnverified => "CASH_UPPER_BOUND_UNVERIFIED"
  | .priceEstimateExceedsUpperBound => "PRICE_ESTIMATE_EXCEEDS_UPPER_BOUND"
  | .cashBudgetNotAuthorized => "CASH_BUDGET_NOT_AUTHORIZED"
  | .cashBudgetMissing => "CASH_BUDGET_MISSING"
  | .cashBudgetInsufficient => "CASH_BUDGET_INSUFFICIENT"

-- Rows

structure CapacityPolicyRef where
  account_id : String
  (revision current_revision : Nat)

structure QuotaEvaluation where
  observation : PoolState
  (safety_margin role_reserve : Nat)
  /-- Before the demand is taken, none where it is not known as a number. -/
  available_before_demand : Option Int
  pressure : Option Rat
  unknown_mode : Bool
  capacity_policy_revision : Nat

structure PoolEvaluation where
  pool_id : String
  unit : QuotaUnit
  window_id : String
  demand : Quantity
  /-- Absent where the quota is still to be validated. -/
  quota : Option QuotaEvaluation

structure Cash where
  currency : Option String
  (estimate upper_bound : Option Quantity)

structure SortInputs where
  preference_band : Option Int
  uncertainty_band : Option Nat
  (bottleneck_quota_pressure incremental_cash_estimate completion_time_estimate : Option Rat)

def SortInputs.empty : SortInputs := ⟨none, none, none, none, none⟩

structure Candidate where
  profile : ProfileRef
  reason_codes : List String
  eligible : Bool
  required_capabilities : List String
  qualification_evidence : Option ProfileFacts
  capacity_policy : Option CapacityPolicyRef
  pool_evaluations : List PoolEvaluation
  sort_inputs : SortInputs
  cash : Option Cash
  rank : Option Nat

namespace Candidate

def new (ref : ProfileRef) : Candidate := ⟨ref, [], false, [], none, none, [], .empty, none, none⟩

def refuse (row : Candidate) (reasons : List Reason) : Candidate :=
  { row with reason_codes := row.reason_codes ++ reasons.map Reason.text }

/-- The reasons in their order, each of them once: without any, the candidate is eligible. -/
def settle (row : Candidate) : Candidate :=
  let codes := sortedSet row.reason_codes
  { row with reason_codes := codes, eligible := codes.isEmpty }

end Candidate

-- Capabilities

def workerCapability : Class → String
  | .T1 => "bounded_code_edit"
  | .T2 => "bounded_implementation"
  | .T3 => "critical_implementation"

section
variable (task : TaskSnapshot)

def roleCapabilities (effective : Class) : List String :=
  match task.role with
  | .worker => [workerCapability effective, "controlled_tools", "candidate_capture"]
  | .reviewer =>
    [if effective = .T3 then "critical_code_review" else "code_review", "structured_findings"]
  | .commander =>
    "design_reasoning" :: if task.purpose = some .lead then ["structured_plan_output"] else []

def required (policy : PolicySnapshot) (rule : Rule) (effective : Class) : List String :=
  sortedSet (task.required_capabilities ++ policy.constraints.required_capabilities ++
    task.authorization.required_capabilities ++ rule.capabilities_all ++
    roleCapabilities task effective)

-- What stands against a profile

def approvalReasons (key : ProfileRef) (task : TaskSnapshot) (policy : PolicySnapshot) : List Reason :=
  reasonIf (key ∉ policy.approved_profile_refs) .projectProfileNotApproved ++
  reasonIf (key ∉ policy.constraints.profile_refs) .projectConstraintProfileDenied ++
  reasonIf (key ∉ task.authorization.profile_refs) .runProfileNotApproved ++
  reasonIf (key ∉ task.authorization.ceiling_profile_refs) .runCeilingProfileDenied

/-- The registered profile of a reference with the profile it is bound to. -/
def ResourceCatalog.bound? (resources : ResourceCatalog) (key : ProfileRef) :
    Option (RegisteredProfile × Profile) :=
  (resources.profiles.find? (·.toProfileRef = key)).bind fun registered =>
    registered.profile.map (registered, ·)

def bindingReasons (key : ProfileRef) (registered : RegisteredProfile) (profile : Profile)
    (effective : Class) : List Reason :=
  reasonIf (profile.toProfileRef ≠ key) .profileBindingMismatch ++
  reasonIf (!registered.enabled) .profileDisabled ++
  reasonIf (!registered.max_class.any (effective.level ≤ ·.level)) .profileClassInsufficient ++
  reasonIf (registered.required_isolation ≠ some .toolSandboxed) .isolationInsufficient

def channelReasons (resources : ResourceCatalog) (profile : Profile) : List Reason :=
  let binding := profile.binding
  let channel := resources.channels.find? (·.id = binding.channel_id)
  let account := resources.accounts.find? (·.id = binding.account_id)
  reasonIf (!channel.any (·.account_id = some binding.account_id) ||
    !account.any (·.secret_ref = some profile.auth_ref)) .channelAccountBindingInvalid ++
  reasonIf (!channel.any (·.billing_path = some binding.billing_path)) .billingPathUnverified ++
  reasonIf (!channel.any (·.approved_data_destination)) .dataDestinationNotApproved

def constraintReasons (profile : Profile) (constraints : HardConstraints) : List Reason :=
  reasonIf (profile.binding.channel_id ∉ constraints.channel_ids) .channelNotAuthorized ++
  reasonIf (!(task.tools ++ profile.required_permissions).all (· ∈ constraints.tools))
    .toolNotAuthorized

def PolicySnapshot.facts? (policy : PolicySnapshot) (key : ProfileRef) : Option ProfileFacts :=
  policy.profile_facts.find? (·.profile = key)

def qualificationReasons (policy : PolicySnapshot) (as_of : Rat)
    (profile : Profile) (profile_hash : String) (facts : ProfileFacts) : List Reason :=
  reasonIf (facts.profile_digest ≠ profile_hash ||
    facts.runtime_version ≠ profile.binding.runtime_version ||
    !(facts.observed_at ≤ as_of && as_of < facts.valid_until)) .profileFactsStaleOrMismatched ++
  reasonIf (task.role ∉ facts.roles) .roleNotSupported ++
  reasonIf (!task.tools.all (· ∈ facts.tools)) .toolsNotSupported ++
  reasonIf (!facts.context_tokens.any (task.context_tokens + task.reserved_output_tokens ≤ ·))
    .contextCapacityInsufficient ++
  reasonIf ([policy.constraints, task.authorization.toHardConstraints].any
    (facts.data_destination ∉ ·.data_destinations)) .dataDestinationNotAuthorized

def factsReasons (policy : PolicySnapshot) (as_of : Rat) (key : ProfileRef)
    (profile : Profile) (profile_hash : String) : List Reason :=
  match policy.facts? key with
  | none => [.profileFactsMissing]
  | some facts => qualificationReasons task policy as_of profile profile_hash facts

def CapabilityEvidence.qualifies (evidence : CapabilityEvidence) (profile : Profile)
    (profile_hash : String) : Bool :=
  evidence.status = .passed && evidence.profile_digest = some profile_hash &&
  evidence.runtime_version = some profile.binding.runtime_version && evidence.provenance.isSome

def RegisteredProfile.evidence? (registered : RegisteredProfile) (capability : String) :
    Option CapabilityEvidence :=
  (Dict.ofList (registered.capability_evidence.map fun e => (e.capability, e))).get? capability

def capabilityReasons (capabilities : List String) (registered : RegisteredProfile)
    (profile : Profile) (profile_hash : String) : List Reason :=
  capabilities.flatMap fun capability =>
    reasonIf (!(registered.evidence? capability).any fun current =>
      current.qualifies profile profile_hash && current.evidence_ref.isSome)
      (.capabilityUnqualified capability)

def authorReasons (rule : Rule) (effective : Class)
    (registered : RegisteredProfile) (author : Author) : List Reason :=
  reasonIf (author.attempt_id = task.planned_attempt_id ||
    author.context_id = task.planned_context_id) .reviewNotIndependent ++
  reasonIf ((effective = .T3 || .differentModelFamilyFromAuthors ∈ rule.independence) &&
    (registered.model_family.isNone || author.model_family.isNone ||
      registered.model_family = author.model_family)) .reviewFamilyNotIndependent

def reviewReasons (rule : Rule) (effective : Class) (registered : RegisteredProfile) : List Reason :=
  if task.role = .reviewer then
    reasonIf (task.authors.isEmpty) .authorScopeRequired ++
    task.authors.flatMap (authorReasons task rule effective registered)
  else []

end

/-- What stands against a profile that is bound, besides its approvals. -/
def boundReasons (L : Library) (key : ProfileRef) (task : TaskSnapshot) (policy : PolicySnapshot)
    (as_of : Rat) (rule : Rule) (effective : Class) (registered : RegisteredProfile)
    (profile : Profile) : List Reason :=
  let profile_hash := L.digest profile.document
  bindingReasons key registered profile effective ++
  channelReasons policy.resources profile ++
  constraintReasons task profile policy.constraints ++
  constraintReasons task profile task.authorization.toHardConstraints ++
  factsReasons task policy as_of key profile profile_hash ++
  capabilityReasons (required task policy rule effective) registered profile profile_hash ++
  reviewReasons task rule effective registered

def profileChecks (L : Library) (ref : ProfileRef) (task : TaskSnapshot) (policy : PolicySnapshot)
    (as_of : Rat) (rule : Rule) (effective : Class) : Candidate :=
  let row := (Candidate.new ref).refuse (approvalReasons ref task policy)
  match policy.resources.bound? ref with
  | none => row.refuse [.profileBindingMissing]
  | some (registered, profile) =>
    { row with
      required_capabilities := required task policy rule effective
      qualification_evidence := policy.facts? ref }.refuse
      (boundReasons L ref task policy as_of rule effective registered profile)

end Karajan.Routing
