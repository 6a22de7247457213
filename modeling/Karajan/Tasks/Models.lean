import Karajan.Admission.Budget
import Karajan.Candidates.Recovery
import Karajan.Capacity.Callers
import Karajan.Routing.Models

/-!
# Task operations

An operation is the one record of an approved task on its way from the queue to
a candidate: the assessment it was made for, the request that was stored with
it, what Capacity answered, and the execution it led to. Every writer loads the
record, edits it and saves it whole, in one transaction.
-/

namespace Karajan.Tasks

open Capacity (AdmissionRequest)
open Candidates (isHex)

-- Plans and approvals

abbrev ProfileRef := Routing.ProfileRef

structure PlanKeys where
  term : Nat
  (plan_digest authorization_digest configuration_digest routing_digest : String)
deriving DecidableEq

structure Approval extends PlanKeys where
  plan_revision : Nat
  document : String
deriving DecidableEq

structure PlanTask where
  id : String
  role : Capacity.Role
  depends_on : List String
  ready : Bool
  tools : List String

structure Plan extends PlanKeys where
  plan_revision : Nat
  tasks : List PlanTask
  budget_ref : String

structure PolicySnapshot where
  (digest document : String)
deriving DecidableEq

structure RegisteredProfile where
  profile : ProfileRef
  (runtime_kind model_id channel_id document : String)
deriving DecidableEq

structure RunDocument where
  (id project_id owner : String)
  executing : Bool
  plans : List Plan
  approvals : List Approval
  active_plan_revision : Option Nat
  configuration_digest : String
  execution_policy : PolicySnapshot
  profiles : List RegisteredProfile
  budgets : List Admission.BudgetResource

def RunDocument.budgetRun (run : RunDocument) : Admission.RunDocument where
  id := run.id
  plans := run.plans.map fun plan => ⟨plan.plan_revision, plan.budget_ref⟩
  active_plan_revision := run.active_plan_revision
  budgets := run.budgets

-- Assessments

structure ExecutionContext where
  max_requests : Nat
  (execution_policy_digest context : String)
deriving DecidableEq

structure Authentication where
  (generation document : String)
deriving DecidableEq

structure ProfileSource where
  profile : ProfileRef
  execution_context : Option ExecutionContext
  authentication : Option Authentication
  document : String
deriving DecidableEq

structure ReviewerLineage where
  (worker_operation_id worker_task_id document : String)
deriving DecidableEq

structure TaskSnapshot where
  role : Capacity.Role
  purpose : Option Capacity.Purpose
  duration_seconds : Nat
  (root_task_id budget_ref : String)

structure Estimate where
  profile : ProfileRef
  demand : List (String × Capacity.Quantity)

structure Expectation where
  profile : ProfileRef
  expected_capacity : Capacity.ExpectedCapacity

structure Route where
  selected_profile : ProfileRef
  expectations : List Expectation
  estimates : List Estimate
  rulebook : String
  task : TaskSnapshot

structure Assessment where
  (id digest run_id planned_attempt_id planned_context_id : String)
  reason_codes : List String
  selected : Option Route
  approval : Approval
  (routing_digest execution_policy_digest : String)
  profiles : List ProfileSource
  reviewer_lineage : Option ReviewerLineage

-- Workspaces

structure SourceBinding where
  approval : Approval
  tasks : List PlanTask
  execution_policy : PolicySnapshot
  (configuration_digest assessment_id assessment_digest : String)
  selected_profile : ProfileRef
  profile_registration : RegisteredProfile
  profile_source : ProfileSource

structure WorkspaceFile where
  (path sha256 : String)
  writable : Bool

structure WorkspaceInput where
  (run_id operation_id task_id planned_attempt_id planned_context_id : String)
  source_binding : SourceBinding
  baseline_id : String
  write_paths : List String
  files : List WorkspaceFile

structure Workspace extends WorkspaceInput where
  (input_sha256 digest : String)

-- Executions

structure ProcessIdentity where
  pid : Int
  birth : String
deriving DecidableEq

structure GoExecutionSource where
  (runner_source_sha256 native_source_sha256 : String)
deriving DecidableEq

structure Intent extends GoExecutionSource where
  (run_id operation_id project_id owner task_id attempt_id context_id : String)
  fence : Nat
  (admission_id admission_request_digest workspace_digest input_sha256 assessment_digest : String)
  (authorization_ref budget_ref : String)
  execution_context : ExecutionContext
  (activation_key start_key grant_id cancel_key : String)

inductive Phase
  | prepared
  | activated
  | activationRejected
  | startUnknown
  | effectClaimed
  | candidateRecorded
deriving DecidableEq

deriving instance DecidableEq for Capacity.Activation

/-- The answer to an activation, which names what it activated. -/
structure ActivationReceipt where
  admission_id : String
  activation : Capacity.Activation
deriving DecidableEq

def ActivationReceipt.revalidated (receipt : ActivationReceipt) : Bool := receipt.activation.reason_codes = []

structure Subject where
  (project_id run_id task_id : String)
deriving DecidableEq

structure GrantBinding where
  subject : Subject
  attempt_id : String
  fence : Nat
  (profile_digest runtime_digest channel model auth_generation : String)
  expires_at : Option Rat
  max_requests : Nat
  (approval_digest execution_policy_digest workspace_digest authentication_source_digest : String)
deriving DecidableEq

structure AttemptManifest where
  id : String
  fence : Nat
  role : Capacity.Role
  profile : ProfileRef
  (authorization_ref budget_ref : String)
  permissions : List String
  requested_binding : RegisteredProfile
deriving DecidableEq

structure HostActivation where
  (id attempt_id : String)
  fence : Nat
  (authorization_ref budget_ref : String)
  expires_at : Option Rat
deriving DecidableEq

structure GoLaunchSpec where
  (process_spec bootstrap_digest : String)

structure LaunchDocument where
  intent_digest : String
  manifest : AttemptManifest
  activation : HostActivation
  grant_binding : GrantBinding
  (process_spec bootstrap_digest : String)
deriving DecidableEq

structure Launch extends LaunchDocument where
  digest : String
deriving DecidableEq

structure EffectClaim where
  intent_digest : String
  runner : ProcessIdentity
deriving DecidableEq

structure HostSnapshot where
  (prepared_id attempt_id state launch_phase remote_stop : String)
deriving DecidableEq

inductive ObservedHost
  | unknown
  | notPrepared
  | seen (snapshot : HostSnapshot)
deriving DecidableEq

inductive ObservedGrant
  | notObserved
  | notCreated
  | unknown
  | bindingMismatch
  | seen (state : String) (request_count : Nat) (calls_digest : String) (unknown_calls : Nat)
      (revoked_at : Option Rat)
deriving DecidableEq

inductive Failure
  | advance
  | runner
  | cancel
deriving DecidableEq

structure ObservationDocument where
  intent_digest : String
  failure : Option Failure
  host : ObservedHost
  grant : ObservedGrant
deriving DecidableEq

structure Observation extends ObservationDocument where
  digest : String
deriving DecidableEq

/-- What a collector reports of the task it stopped; a field may be missing. -/
structure Report where
  attempt_id : Option String
  fence : Option Nat
  (grant_id native_source_sha256 runner_source_digest : Option String)
  subject : Option Subject
  grant_binding : Option GrantBinding
  document : String
deriving DecidableEq

structure CaptureEvidence where
  (intent_digest workspace_digest input_sha256 : String)
  projection : List Candidates.ProjectionRow
  captured_files : List Candidates.CapturedFile
  report : Report
deriving DecidableEq

structure CaptureDocument extends CaptureEvidence where
  evidence_digest : String
  freeze_request : Candidates.Freeze
deriving DecidableEq

structure CandidateReference where
  (id series_id : String)
  revision : Nat
  (content_sha256 manifest_sha256 input_sha256 policy_sha256 : String)
deriving DecidableEq

structure Collection where
  capture : CaptureDocument
  capture_digest : String
  candidate : Option CandidateReference

structure Execution where
  intent : Intent
  intent_digest : String
  phase : Phase
  cancel_requested : Bool
  capacity_activation : Option ActivationReceipt
  host_prepared_id : Option String
  host_observation : Option HostSnapshot
  effect_claim : Option EffectClaim
  launch : Option Launch
  collection : Option Collection
  observations : List Observation

-- Operations

inductive OperationState
  | queued
  | blocked
  | reserved
  | expired
  | released
  | reconciliationRequired
  | cancellationPending
  | cancelled
  | executionPending
  | executing
  | executionUnknown
deriving DecidableEq

/-- The states in which the operation of a task leaves no place for another one. -/
def OperationState.live (state : OperationState) : Bool :=
  state = .queued || state = .reserved || state = .cancellationPending ||
    state = .reconciliationRequired || state = .executionPending || state = .executing ||
    state = .executionUnknown

inductive TaskError
  | commandIdentityInvalid
  | idempotencyConflict
  | admissionNotFound
  | admissionPending
  | reviewerBindingControllerRequired
  | uniqueReviewerDependencyRequired
  | reviewWorkerLineageRequired
  | reviewerOperationRequired
  | reviewerOperationCancelled
  | reservedReviewerOperationRequired
  | reviewerActivationIntentChanged
  | runNotFound
  | approvedPlanRequired
  | approvalBindingMismatch
  | workspaceScopeNotSupported
  | workspaceReservationRequired
  | workspaceNotPrepared
  | workspaceBindingMismatch
  | executionNotPrepared
  | executionSourceChanged
  | executionBindingMismatch
  | executionReservationRequired
  | executionGoScopeRequired
  | executionCancelRequested
  | executionActivationRequired
  | executionActivationConflict
  | executionHostBindingMismatch
  | executionHostPrepareRequired
  | executionStartIntentRequired
  | executionPreparedRequired
  | executionLaunchPreparationRequired
  | executionClaimNotCurrent
  | executionRunnerInvalid
  | launchCompilerRequired
  | launchSpecInvalid
  | launchBindingConflict
  | nativeToolScopeUnsupported
  | authenticationSourceRequired
  | captureReceiptInvalid
  | captureBindingMismatch
  | captureIdentityConflict
  | candidateStoreRequired
  | candidateBindingMismatch
  | candidateIdentityConflict
  | budget (error : Admission.BudgetError)
  | capacity (error : Capacity.CapacityError)
  | candidates (error : Candidates.CandidateError)
  | refused (code : String)
  | exception

inductive ReasonCode
  | assessed (code : String)
  | capacity (reason : Capacity.Reason)
  | capacityError (error : Capacity.CapacityError)
  | refused (code : String)
  | reservationExpiredUnsent
  | reservationReleased
  | capacityAdmissionMissing
  | executionReconciliationRequired
  | approvedAdmissionInputChanged
  | reviewerAdmissionProvenanceChanged

structure ActivationIntent where
  (admission_id command_key : String)
  receipt : Option ActivationReceipt

inductive ReviewerActivation
  | notApplicable
  | absent
  | intended (intent : ActivationIntent)

def ReviewerActivation.intent? : ReviewerActivation → Option ActivationIntent
  | .notApplicable => none
  | .absent => none
  | .intended intent => some intent

structure Operation where
  (id run_id task_id : String)
  depends_on_operation_id : Option String
  (planned_attempt_id planned_context_id : String)
  state : OperationState
  reason_codes : List ReasonCode
  assessment : Assessment
  request : Option AdmissionRequest
  capacity_receipt : Option Capacity.Decision
  reviewer_activation : ReviewerActivation
  revalidation : Option Assessment
  capacity_status : Option Capacity.Facts
  cancel_requested : Bool
  cancellation_receipt : Option Capacity.ReservationState
  workspace : Option Workspace
  execution : Option Execution

-- Digests

inductive Document
  | approval (approval : Approval)
  | rulebook (text : String)
  | request (request : AdmissionRequest)
  | input (input : WorkspaceInput)
  | workspace (input : WorkspaceInput) (input_sha256 : String)
  | intent (intent : Intent)
  | profile (profile : RegisteredProfile)
  | authentication (source : Authentication)
  | launch (launch : LaunchDocument)
  | evidence (evidence : CaptureEvidence)
  | capture (capture : CaptureDocument)
  | observation (observation : ObservationDocument)

structure Library where
  digest : Document → String
  identifier : String → Bool
  capacity : Capacity.Library
  candidates : Candidates.Library

end Karajan.Tasks
