import Karajan.Capacity.Evaluation
import Karajan.Execution.Manifest
import Mathlib.Data.Prod.Lex
import Mathlib.Data.String.Basic

/-!
# Routing documents

A routing decision reads three snapshots: the task with what its run authorized,
the policy of the project, and the capacity that was observed. The records here
were parsed when they arrived, so that a field has the type its contract gives
it; a point in time is an exact number.
-/

namespace Karajan.Routing

open Capacity (Purpose Quantity PoolKind QuotaUnit WindowKind Source)
open Execution (Binding BillingPath Role)

structure Library where
  /-- The digest of a value in its canonical JSON text. -/
  digest : Json → String
  (lower upper casefold : String → String)
  isprintable : Char → Bool

-- Profiles

structure ProfileRef where
  id : String
  revision : Nat
deriving DecidableEq

/-- References stand in the order of their names, then of their revisions. -/
def ProfileRef.key (ref : ProfileRef) : String ×ₗ Nat := toLex (ref.id, ref.revision)

theorem ProfileRef.key_injective : Function.Injective ProfileRef.key := by
  rintro ⟨id, revision⟩ ⟨id', revision'⟩ h
  simpa [ProfileRef.key] using h

instance : LinearOrder ProfileRef := LinearOrder.lift' ProfileRef.key ProfileRef.key_injective

inductive Granularity
  | attempt
  | modelCall
deriving DecidableEq

inductive Coverage
  | attempt
  | modelCall
  | unknown
deriving DecidableEq

structure Profile extends ProfileRef where
  binding : Binding
  auth_ref : String
  required_permissions : List String
  admission_granularity : Granularity
  usage_coverage : Coverage

def Granularity.text : Granularity → String
  | .attempt => "attempt"
  | .modelCall => "model_call"

def Coverage.text : Coverage → String
  | .attempt => "attempt"
  | .modelCall => "model_call"
  | .unknown => "unknown"

def Profile.document (p : Profile) : Json :=
  .object [("id", .str p.id), ("revision", .int p.revision), ("binding", p.binding.document),
    ("auth_ref", .str p.auth_ref), ("required_permissions", .list (p.required_permissions.map .str)),
    ("admission_granularity", .str p.admission_granularity.text),
    ("usage_coverage", .str p.usage_coverage.text)]

-- The resources of a project

inductive Class
  | T1
  | T2
  | T3
deriving DecidableEq

inductive Isolation
  | attemptIsolated
  | toolSandboxed
deriving DecidableEq

inductive EvidenceStatus
  | passed
  | failed
  | notRun
  | unsupported
deriving DecidableEq

inductive Provenance
  | fixture
  | importedObservation

structure CapabilityEvidence where
  capability : String
  status : EvidenceStatus
  (profile_digest runtime_version evidence_ref : Option String)
  provenance : Option Provenance

structure Account where
  id : String
  secret_ref : Option String

structure Channel where
  id : String
  account_id : Option String
  billing_path : Option BillingPath
  approved_data_destination : Bool

structure RegisteredProfile extends ProfileRef where
  profile : Option Profile
  model_family : Option String
  max_class : Option Class
  required_isolation : Option Isolation
  enabled : Bool
  quota_pool_refs : List String
  capability_evidence : List CapabilityEvidence

structure QuotaPool where
  id : String
  account_id : Option String
  kind : PoolKind
  unit : QuotaUnit

inductive BudgetScope
  | planning
  | run
deriving DecidableEq

structure Budget where
  id : String
  scope : BudgetScope
  currency_limits : Dict String (Option Quantity)

structure ResourceCatalog where
  accounts : List Account
  channels : List Channel
  profiles : List RegisteredProfile
  quota_pools : List QuotaPool
  budgets : List Budget

-- The rulebook

inductive Readiness
  | T0
  | ready
deriving DecidableEq

inductive Independence
  | freshContext
  | nonAuthorAttempt
  | differentModelFamilyFromAuthors
deriving DecidableEq

inductive Reroute
  | proposeCheckpointHandoffRequireUserDecision
  | withinApprovedSet
  | withinApprovedSetPreserveRequirements
deriving DecidableEq

inductive QueueItem
  | leadFeedback
  | requiredReviewRepairAndCriticalPath
  | worker
  | optionalAdviser
deriving DecidableEq

inductive Criterion
  | preferenceBand
  | uncertaintyBand
  | bottleneckQuotaPressure
  | incrementalCashEstimate
  | completionTimeEstimate
  | profileId
deriving DecidableEq

structure When where
  role : Role
  purpose : Option Purpose
  readiness : Option Readiness
  effective_class : Option Class
  effective_class_in : Option (List Class)
  (domains_all risks_in : List String)

structure Preference where
  profile : ProfileRef
  band : Int

structure Rule where
  id : String
  priority : Int
  when : When
  (eligible_groups capabilities_all quality_escalation_groups : List String)
  profile_preferences : List Preference
  independence : List Independence
  reroute : Reroute
  lead_reserve_access : Option Bool

structure ResourcePolicy where
  queue_order : List QueueItem
  candidate_order : List Criterion
  (planning_budget_ref run_budget_ref : Option String)

structure Rulebook where
  max_quality_repair_rounds : Nat
  profile_groups : Dict String (List ProfileRef)
  resource_policy : ResourcePolicy
  rules : List Rule

-- Tasks and policies

structure PathFloor where
  pathPrefix : String
  minimum_class : Class

structure RiskPolicy where
  mapping : Dict String Class
  path_floors : List PathFloor

structure HardConstraints where
  profile_refs : List ProfileRef
  (channel_ids tools data_destinations required_capabilities : List String)

inductive Stage
  | normal
  | quality
deriving DecidableEq

structure Authorization extends HardConstraints where
  ceiling_profile_refs : List ProfileRef
  allowed_stages : List Stage
  approved_groups : Dict String (List ProfileRef)
  approved_quality_stage_indices : List Nat
  budget_ref : String
  currency_limits : Dict String Quantity
  (max_attempt_duration_seconds max_quality_repair_rounds : Nat)

structure Work where
  complexity : Class
  risk : String
  paths : List String

structure Author extends Work where
  model_family : Option String
  (attempt_id context_id : String)

structure TaskClassification extends Work where
  role : Role
  purpose : Option Purpose
  readiness : Readiness
  domains : List String
  authors : List Author

/-- A task of an approved plan, or the planning of a run before there is one. -/
structure TaskSnapshot extends TaskClassification where
  (required_capabilities tools : List String)
  (context_tokens reserved_output_tokens duration_seconds : Nat)
  stage : Stage
  quality_stage_index : Nat
  failure_reason : Option String
  previous_profile : Option ProfileRef
  quality_repair_rounds_used : Nat
  (planned_attempt_id planned_context_id : String)
  authorization : Authorization

inductive BudgetEnforcement
  | boundedCalls
  | estimatedStop
  | unknown
deriving DecidableEq

structure ProfileFacts where
  profile : ProfileRef
  (profile_digest runtime_version : String)
  roles : List Role
  tools : List String
  context_tokens : Option Nat
  data_destination : String
  budget_enforcement : BudgetEnforcement
  (observed_at valid_until : Rat)

structure PolicySnapshot where
  rulebook : Rulebook
  resources : ResourceCatalog
  approved_profile_refs : List ProfileRef
  profile_facts : List ProfileFacts
  risk_policy : RiskPolicy
  constraints : HardConstraints

-- Capacity

structure AccountState where
  id : String
  (policy_revision current_policy_revision : Nat)
  policy : Capacity.Policy
  active_attempts : Nat
  cash_remaining : Dict String Quantity
  cooldown_until : Option Rat
  exhaustion_observation_required : Bool

inductive Confidence
  | known
  | calibrated
  | unknown
deriving DecidableEq

structure PoolState where
  (id account_id : String)
  kind : PoolKind
  unit : QuotaUnit
  window_kind : WindowKind
  window_id : String
  (reported_remaining reported_limit : Option Quantity)
  (local_uncovered future_reserved : Quantity)
  observed_at : Rat
  reset_at : Option Rat
  source : Source
  confidence : Confidence

inductive PriceCoverage
  | allCalls
  | partialCalls
  | unknown
deriving DecidableEq

structure PriceQuote where
  (profile_digest runtime_version currency : String)
  (estimated_cash upper_bound : Option Quantity)
  coverage : PriceCoverage
  (observed_at valid_until : Rat)

structure Demand where
  pool_id : String
  unit : QuotaUnit
  window_id : String
  amount : Quantity

structure Estimate where
  profile : ProfileRef
  demand : List Demand
  confidence : Confidence
  completion_seconds : Option Rat
  price : Option PriceQuote

structure FXSnapshot where
  reference_currency : String
  rates : Dict String Quantity
  (observed_at valid_until : Rat)

structure CapacitySnapshot where
  as_of : Rat
  accounts : List AccountState
  pools : List PoolState
  estimates : List Estimate
  budget_remaining : Dict String (Dict String Quantity)
  fx : Option FXSnapshot

end Karajan.Routing
