import Karajan.Tasks.Admission

/-!
# Executing tasks

An operation that holds a reservation is given one execution. From then on the
controller edits the execution alone, under what each edit requires of it; the
effects themselves are others', and what they answer is read. None of the
edits below is more than one transaction.
-/

namespace Karajan.Tasks

open Check
open Candidates (isHex sameSet)
variable (lib : Library)

-- Workspaces

/-- The task under the approval that the operation was assessed for (`_approved_task`). -/
def approvedTask (run : RunDocument) (op : Operation) (principal : String) :
    Except TaskError (Plan × PlanTask) := do
  ensure (run.owner = principal) .runNotFound
  ensure run.executing .approvedPlanRequired
  let plan ← need run.active? .approvalBindingMismatch
  let approval ← need (run.approvals.find? fun approval =>
    some approval.plan_revision = run.active_plan_revision) .approvalBindingMismatch
  ensure (op.assessment.approval = approval && approval.toPlanKeys = plan.toPlanKeys &&
    op.assessment.routing_digest = plan.routing_digest &&
    op.assessment.execution_policy_digest = run.execution_policy.digest &&
    plan.configuration_digest = run.configuration_digest) .approvalBindingMismatch
  let task ← need (plan.tasks.find? (·.id = op.task_id)) .workspaceScopeNotSupported
  ensure (task.role = .worker && task.depends_on.isEmpty && task.ready) .workspaceScopeNotSupported
  return (plan, task)

structure Captured where
  baseline_id : String
  write_paths : List String
  files : List WorkspaceFile

def workspaceInput (run : RunDocument) (op : Operation) (plan : Plan) (captured : Captured) :
    Except TaskError WorkspaceInput := do
  let route ← need op.assessment.selected .exception
  let registration ← need (run.profiles.find? (·.profile = route.selected_profile)) .exception
  let source ← need (op.assessment.profiles.find? (·.profile = route.selected_profile)) .exception
  return {
    run_id := run.id
    operation_id := op.id
    task_id := op.task_id
    planned_attempt_id := op.planned_attempt_id
    planned_context_id := op.planned_context_id
    source_binding := {
      approval := op.assessment.approval
      tasks := plan.tasks
      execution_policy := run.execution_policy
      configuration_digest := run.configuration_digest
      assessment_id := op.assessment.id
      assessment_digest := op.assessment.digest
      selected_profile := route.selected_profile
      profile_registration := registration
      profile_source := source }
    baseline_id := captured.baseline_id
    write_paths := captured.write_paths
    files := captured.files }

def workspaceOf (input : WorkspaceInput) : Workspace :=
  let input_sha256 := lib.digest (.input input)
  { input with input_sha256, digest := lib.digest (.workspace input input_sha256) }

structure WorkspaceWorld where
  refresh : RefreshWorld
  run : Except TaskError RunDocument
  captured : Except TaskError Captured

def prepareWorkspace (w : WorkspaceWorld) (principal : String) (op : Operation) : Visiting Operation := do
  let op ← refresh lib w.refresh op
  Visit.lift (ensure (op.state = .reserved && !op.cancel_requested) .workspaceReservationRequired)
  let run ← Visit.lift w.run
  let (plan, _) ← Visit.lift (approvedTask run op principal)
  if op.workspace.isSome then pure op
  else do
    let captured ← Visit.lift w.captured
    let input ← Visit.lift (workspaceInput run op plan captured)
    pure { op with workspace := some (workspaceOf lib input) }

-- The intent

def Workspace.ofOperation (workspace : Workspace) (op : Operation) : Bool :=
  workspace.run_id = op.run_id && workspace.task_id = op.task_id &&
    workspace.planned_attempt_id = op.planned_attempt_id &&
    workspace.planned_context_id = op.planned_context_id && workspace.operation_id = op.id

def makeIntent (source : GoExecutionSource) (run : RunDocument) (op : Operation) (task : PlanTask) :
    Except TaskError Intent := do
  let workspace ← need op.workspace .workspaceNotPrepared
  ensure (lib.digest (.workspace workspace.toWorkspaceInput workspace.input_sha256) = workspace.digest)
    .workspaceBindingMismatch
  ensure (lib.digest (.input workspace.toWorkspaceInput) = workspace.input_sha256 &&
    workspace.ofOperation op) .workspaceBindingMismatch
  let binding := workspace.source_binding
  let route ← need op.assessment.selected .exception
  let profile_source := op.assessment.profiles.find? (·.profile = route.selected_profile)
  ensure (binding.assessment_id = op.assessment.id && binding.assessment_digest = op.assessment.digest &&
    binding.approval = op.assessment.approval &&
    binding.configuration_digest = run.configuration_digest &&
    binding.execution_policy = run.execution_policy &&
    binding.selected_profile = route.selected_profile &&
    some binding.profile_source = profile_source) .workspaceBindingMismatch
  let profile_source ← need profile_source .executionGoScopeRequired
  let execution_context ← need profile_source.execution_context .executionGoScopeRequired
  let request ← need op.request .exception
  let receipt ← need op.capacity_receipt .exception
  let admission_id ← need receipt.admission_id .executionReservationRequired
  ensure (request.attempt_id = op.planned_attempt_id) .executionReservationRequired
  return { source with
    run_id := run.id
    operation_id := op.id
    project_id := run.project_id
    owner := run.owner
    task_id := task.id
    attempt_id := op.planned_attempt_id
    context_id := op.planned_context_id
    fence := 1
    admission_id
    admission_request_digest := lib.digest (.request request)
    workspace_digest := workspace.digest
    input_sha256 := workspace.input_sha256
    assessment_digest := op.assessment.digest
    authorization_ref := request.authorization_ref
    budget_ref := route.task.budget_ref
    execution_context
    activation_key := activationKey op.id
    start_key := "go-task-start:" ++ op.id
    grant_id := "go-task-grant:" ++ op.id
    cancel_key := "go-task-cancel:" ++ op.id }

def Operation.row (op : Operation) : Admission.OperationRow where
  id := op.id
  run_id := op.run_id
  root_task_id := (op.assessment.selected.map (·.task.root_task_id)).getD ""
  execution := op.execution.isSome

open Admission (Budgets Scope Reading RunExecutionBudget)

def claimProcess (operations : Operations) (budgets : Budgets) (run : RunDocument)
    (op : Operation) (attempt_id : String) (scope : Scope) (now : Reading) :
    Except TaskError (Dict String RunExecutionBudget) := do
  let _ ← need op.assessment.selected .exception
  let (budgets, _) ← (Admission.claimProcess budgets (operations.values.map Operation.row)
    run.budgetRun op.row attempt_id scope now).mapError .budget
  return budgets

def newExecution (intent : Intent) : Execution where
  intent
  intent_digest := lib.digest (.intent intent)
  phase := .prepared
  cancel_requested := false
  capacity_activation := none
  host_prepared_id := none
  host_observation := none
  effect_claim := none
  launch := none
  collection := none
  observations := []

/-- The record of an execution is of this operation, and of the source if one is given. -/
def checkExecution (source : Option GoExecutionSource) (op : Operation) : Except TaskError Execution := do
  let execution ← need op.execution .executionNotPrepared
  let intent := execution.intent
  ensure (lib.digest (.intent intent) = execution.intent_digest &&
    source.all (intent.toGoExecutionSource = ·)) .executionSourceChanged
  let workspace ← need op.workspace .exception
  let request ← need op.request .exception
  ensure (intent.run_id = op.run_id && intent.operation_id = op.id &&
    intent.attempt_id = op.planned_attempt_id && intent.context_id = op.planned_context_id &&
    intent.workspace_digest = workspace.digest &&
    intent.admission_request_digest = lib.digest (.request request)) .executionBindingMismatch
  return execution

structure IntentWorld where
  run : Except TaskError RunDocument
  now : Reading

/-- The operation with an execution, and the ledger with the claim for it. -/
def prepareIntent (source : GoExecutionSource) (w : IntentWorld) (operations : Operations)
    (budgets : Budgets) (principal : String) (op : Operation) :
    Except TaskError (Operation × Dict String RunExecutionBudget) := do
  ensure (op.state = .reserved && !op.cancel_requested) .executionReservationRequired
  let run ← w.run
  let (_, task) ← approvedTask run op principal
  let intent ← makeIntent lib source run op task
  let budgets ← claimProcess operations budgets run op intent.attempt_id .writer w.now
  return ({ op with state := .executionPending, execution := some (newExecution lib intent) }, budgets)

-- Editing

def Operation.withExecution (op : Operation) (execution : Execution) : Operation :=
  { op with execution := some execution }

def ensureUncancelled (op : Operation) : Except TaskError Unit :=
  ensure (!op.cancel_requested) .executionCancelRequested

def parts (op : Operation) (execution : Execution) :
    Except TaskError (Intent × SourceBinding × RegisteredProfile) := do
  let intent := execution.intent
  let workspace ← need op.workspace .executionBindingMismatch
  let request ← need op.request .executionBindingMismatch
  let input := workspace.toWorkspaceInput
  let binding := workspace.source_binding
  let profile := binding.profile_registration
  ensure (lib.digest (.workspace input workspace.input_sha256) = workspace.digest &&
    lib.digest (.input input) = workspace.input_sha256 &&
    lib.digest (.intent intent) = execution.intent_digest &&
    intent.operation_id = op.id && intent.context_id = op.planned_context_id &&
    workspace.ofOperation op && intent.workspace_digest = workspace.digest &&
    intent.input_sha256 = workspace.input_sha256 &&
    intent.admission_request_digest = lib.digest (.request request) &&
    intent.attempt_id = op.planned_attempt_id && intent.run_id = op.run_id &&
    intent.task_id = op.task_id && !op.cancel_requested && !execution.cancel_requested)
    .executionBindingMismatch
  ensure (binding.selected_profile = profile.profile &&
    intent.authorization_ref = lib.digest (.approval binding.approval) &&
    some intent.execution_context = binding.profile_source.execution_context &&
    profile.runtime_kind = "opencode-go-isolated" && profile.model_id = "glm-5.3-flash")
    .executionBindingMismatch
  return (intent, binding, profile)

def hostManifest (op : Operation) (execution : Execution) : Except TaskError AttemptManifest := do
  let (intent, binding, profile) ← parts lib op execution
  let task ← need (binding.tasks.find? (·.id = intent.task_id)) .nativeToolScopeUnsupported
  ensure (task.role = .worker && sameSet task.tools ["read", "edit"]) .nativeToolScopeUnsupported
  return {
    id := intent.attempt_id
    fence := intent.fence
    role := .worker
    profile := profile.profile
    authorization_ref := intent.authorization_ref
    budget_ref := intent.budget_ref
    permissions := ["read", "edit"]
    requested_binding := profile }

def hostActivation (op : Operation) (execution : Execution) : Except TaskError HostActivation := do
  let (intent, _, _) ← parts lib op execution
  let receipt ← need execution.capacity_activation .executionActivationRequired
  ensure (receipt.revalidated && receipt.admission_id = intent.admission_id) .executionActivationRequired
  return {
    id := intent.activation_key
    attempt_id := intent.attempt_id
    fence := intent.fence
    authorization_ref := intent.authorization_ref
    budget_ref := intent.budget_ref
    expires_at := receipt.activation.expires_at }

def grantBinding (op : Operation) (execution : Execution) : Except TaskError GrantBinding := do
  let (intent, binding, profile) ← parts lib op execution
  let activation ← hostActivation lib op execution
  let authentication ← need binding.profile_source.authentication .authenticationSourceRequired
  return {
    subject := ⟨intent.project_id, intent.run_id, intent.task_id⟩
    attempt_id := intent.attempt_id
    fence := intent.fence
    profile_digest := lib.digest (.profile profile)
    runtime_digest := intent.runner_source_sha256
    channel := profile.channel_id
    model := profile.model_id
    auth_generation := authentication.generation
    expires_at := activation.expires_at
    max_requests := intent.execution_context.max_requests
    approval_digest := lib.digest (.approval binding.approval)
    execution_policy_digest := intent.execution_context.execution_policy_digest
    workspace_digest := intent.workspace_digest
    authentication_source_digest := lib.digest (.authentication authentication) }

def launchOf (op : Operation) (execution : Execution) (spec : GoLaunchSpec) : Except TaskError Launch := do
  let document : LaunchDocument := {
    intent_digest := execution.intent_digest
    manifest := ← hostManifest lib op execution
    activation := ← hostActivation lib op execution
    grant_binding := ← grantBinding lib op execution
    process_spec := spec.process_spec
    bootstrap_digest := spec.bootstrap_digest }
  return { document with digest := lib.digest (.launch document) }

/-- Compile the one launch; `compiler` is what the deployment's compiler makes of the operation. -/
def freezeLaunch (compiler : Option (Except TaskError GoLaunchSpec)) (op : Operation)
    (execution : Execution) : Except TaskError Operation := do
  ensureUncancelled op
  let spec ← (← need compiler .launchCompilerRequired)
  ensure (isHex 64 spec.bootstrap_digest) .launchSpecInvalid
  let launch ← launchOf lib op execution spec
  match execution.launch with
  | some prior => do
    ensure (prior = launch) .launchBindingConflict
    return op
  | none => do
    ensure (execution.phase = .activated) .executionActivationRequired
    return op.withExecution { execution with launch := some launch }

/-- The launch that is kept (`_launch`), which must be of the intent. -/
def readLaunch (execution : Execution) : Except TaskError (Option Launch) :=
  match execution.launch with
  | none => .ok none
  | some launch => do
    ensure (launch.intent_digest = execution.intent_digest &&
      lib.digest (.launch launch.toLaunchDocument) = launch.digest) .launchBindingConflict
    return some launch

-- Observing

/-- What the host answers when it is asked about an attempt. -/
inductive HostAnswer
  | snapshot (snapshot : HostSnapshot)
  | missing
  | unavailable

/-- What the journal answers when it is asked about a grant. -/
inductive JournalAnswer
  | grant (binding : GrantBinding) (state : String) (request_count : Nat) (calls_digest : String)
      (unknown_calls : Nat) (revoked_at : Option Rat)
  | notFound
  | unavailable

def ofExecution (execution : Execution) (snapshot : HostSnapshot) : Bool :=
  snapshot.prepared_id = execution.intent.start_key &&
    snapshot.attempt_id = execution.intent.attempt_id

def observedHost (execution : Execution) : HostAnswer → ObservedHost
  | .snapshot snapshot => if ofExecution execution snapshot then .seen snapshot else .unknown
  | .missing => .notPrepared
  | .unavailable => .unknown

def observedGrant (launch : Launch) : JournalAnswer → ObservedGrant
  | .grant binding state request_count calls_digest unknown_calls revoked_at =>
    if binding = launch.grant_binding then
      .seen state request_count calls_digest unknown_calls revoked_at
    else .bindingMismatch
  | .notFound => .notCreated
  | .unavailable => .unknown

def observeExecution (failure : Option Failure) (host : HostAnswer) (journal : Option JournalAnswer)
    (op : Operation) (execution : Execution) : Except TaskError Operation := do
  let launch ← readLaunch lib execution
  let document : ObservationDocument := {
    intent_digest := execution.intent_digest
    failure
    host := observedHost execution host
    grant := match launch, journal with
      | some launch, some journal => observedGrant launch journal
      | none, _ | some _, none => .notObserved }
  let observed : Observation := { document with digest := lib.digest (.observation document) }
  let observations :=
    if execution.observations.getLast? = some observed then execution.observations
    else execution.observations ++ [observed]
  let op := op.withExecution { execution with observations }
  if failure.isSome && !op.cancel_requested && execution.phase ≠ .candidateRecorded then
    return { op with state := .executionUnknown }
  return op

-- Capacity and host

def activationRecorded (found : Option ActivationReceipt) (op : Operation) (execution : Execution) :
    Except TaskError Operation :=
  match found with
  | none => return op
  | some receipt =>
    match execution.capacity_activation with
    | some prior => do
      ensure (prior = receipt) .executionActivationConflict
      return op
    | none =>
      let kept : Execution := { execution with capacity_activation := some receipt }
      if receipt.revalidated then
        return op.withExecution
          { kept with phase := if kept.phase = .prepared then .activated else kept.phase }
      else
        let op := op.withExecution { kept with phase := .activationRejected }
        return { op with
          state := if op.cancel_requested then op.state else .executionUnknown
          reason_codes := receipt.activation.reason_codes.map .capacity }

def readHost (host : HostAnswer) (execution : Execution) : Except TaskError HostSnapshot :=
  match host with
  | .snapshot snapshot => do
    ensure (ofExecution execution snapshot) .executionHostBindingMismatch
    return snapshot
  | .missing => .error .exception
  | .unavailable => .error .exception

def recordHostPrepared (host : HostAnswer) (op : Operation) (execution : Execution) :
    Except TaskError Operation := do
  let snapshot ← readHost host execution
  ensureUncancelled op
  ensure (execution.capacity_activation.any (·.revalidated)) .executionActivationRequired
  return op.withExecution { execution with host_prepared_id := some snapshot.prepared_id }

/-- The one intent to launch, before the host is asked to start. -/
def markStartUnknown (op : Operation) (execution : Execution) : Except TaskError Operation := do
  ensureUncancelled op
  ensure execution.host_prepared_id.isSome .executionHostPrepareRequired
  if execution.phase = .activated then
    return { op.withExecution { execution with phase := .startUnknown } with state := .executionUnknown }
  return op

def hostStarted (host : HostAnswer) (op : Operation) (execution : Execution) : Except TaskError Operation := do
  let snapshot ← readHost host execution
  ensure execution.host_prepared_id.isSome .executionHostPrepareRequired
  return op.withExecution { execution with host_observation := some snapshot }

-- The effect

def checkRunner (runner : ProcessIdentity) : Except TaskError Unit :=
  ensure (0 < runner.pid && 0 < runner.birth.length && runner.birth.length ≤ 256) .executionRunnerInvalid

def Execution.claimOf (execution : Execution) (runner : ProcessIdentity) : EffectClaim :=
  ⟨execution.intent_digest, runner⟩

/-- The operation, and whether the effect is allowed: on the first call that is served alone. -/
def effectStartClaim (runner : ProcessIdentity) (op : Operation) (execution : Execution) :
    Except TaskError (Operation × Bool) := do
  ensureUncancelled op
  if execution.effect_claim.isSome then return (op, false)
  ensure (execution.phase = .startUnknown) .executionStartIntentRequired
  let claimed : Execution := { execution with
    effect_claim := some (execution.claimOf runner), phase := .effectClaimed }
  return ({ op.withExecution claimed with state := .executing }, true)

-- Captures

def CaptureDocument.rowsValid (document : CaptureDocument) : Bool :=
  !document.projection.isEmpty && document.projection.all (isHex 64 ·.sha256) &&
    decide (document.projection.map (·.path)).Nodup &&
    !document.captured_files.isEmpty && document.captured_files.all (isHex 64 ·.sha256) &&
    decide (document.captured_files.map (·.path)).Nodup &&
    sameSet (document.projection.map (·.path)) (document.captured_files.map (·.path))

/-- What a collector may hand over: everything in it is bound to its evidence. -/
def CaptureDocument.valid (document : CaptureDocument) : Bool :=
  isHex 64 document.intent_digest && isHex 64 document.workspace_digest &&
    isHex 64 document.input_sha256 && isHex 64 document.evidence_digest &&
    lib.digest (.evidence document.toCaptureEvidence) = document.evidence_digest &&
    document.freeze_request.input_sha256 = document.input_sha256 &&
    document.freeze_request.writer.stopped &&
    document.freeze_request.writer.observation_ref = "go-task-stop:" ++ document.evidence_digest &&
    document.freeze_request.authors.all
      (·.provenance_ref = "go-task-author:" ++ document.evidence_digest) &&
    document.rowsValid

structure GoTaskCaptureReceipt where
  document : CaptureDocument
  valid : document.valid lib = true

def expectedProjection (workspace : Workspace) : List Candidates.ProjectionRow :=
  workspace.files.map fun file => ⟨file.path, file.sha256, file.writable⟩

def ownAuthor (intent : Intent) (profile : ProfileRef) (author : Candidates.Actor) : Bool :=
  author.attempt_id = intent.attempt_id && author.fence = intent.fence &&
    author.profile_id = profile.id && author.profile_revision = profile.revision &&
    author.context_id = intent.context_id

def Report.ofIntent (report : Report) (intent : Intent) : Bool :=
  report.attempt_id = some intent.attempt_id && report.fence = some intent.fence &&
    report.grant_id = some intent.grant_id &&
    report.native_source_sha256 = some intent.native_source_sha256 &&
    report.runner_source_digest = some intent.runner_source_sha256 &&
    report.subject = some ⟨intent.project_id, intent.run_id, intent.task_id⟩

def captureIdentity (op : Operation) (execution : Execution) (document : CaptureDocument) :
    Except TaskError Unit := do
  let intent := execution.intent
  let workspace ← need op.workspace .exception
  let request := document.freeze_request
  ensure (document.intent_digest = execution.intent_digest &&
    document.workspace_digest = intent.workspace_digest &&
    document.input_sha256 = intent.input_sha256 &&
    document.projection = expectedProjection workspace &&
    request.baseline_id = workspace.baseline_id &&
    request.series_id = "go-task-candidate:" ++ op.id &&
    request.allowed_paths = workspace.write_paths &&
    request.writer.attempt_id = intent.attempt_id && request.writer.fence = intent.fence &&
    request.authors.head?.any (ownAuthor intent workspace.source_binding.selected_profile) &&
    document.report.ofIntent intent) .captureBindingMismatch
  let launch ← readLaunch lib execution
  ensure (launch.any fun launch => document.report.grant_binding = some launch.grant_binding)
    .captureBindingMismatch

def captureRecorded (source : GoExecutionSource) (runner : ProcessIdentity)
    (capture : GoTaskCaptureReceipt lib) (op : Operation) (execution : Execution) :
    Except TaskError Operation := do
  let document := capture.document
  captureIdentity lib op execution document
  ensure (execution.effect_claim = some (execution.claimOf runner)) .executionClaimNotCurrent
  match execution.collection with
  | some previous => do
    ensure (previous.capture = document && previous.capture_digest = lib.digest (.capture document))
      .captureIdentityConflict
    return op
  | none => do
    let _ ← checkExecution lib (some source) op
    ensureUncancelled op
    ensure (execution.phase = .effectClaimed) .executionClaimNotCurrent
    let collection : Collection := ⟨document, lib.digest (.capture document), none⟩
    return op.withExecution { execution with collection := some collection }

def reference (candidate : Candidates.Candidate) : CandidateReference where
  id := candidate.id
  series_id := candidate.series_id
  revision := candidate.revision
  content_sha256 := candidate.content_sha256
  manifest_sha256 := candidate.manifest_sha256
  input_sha256 := candidate.input_sha256
  policy_sha256 := candidate.policy_sha256

def Collection.lookup (collection : Collection) (store : Candidates.Store) :
    Except TaskError (Option Candidates.Candidate) :=
  (Candidates.lookup_projection_capture lib.candidates store collection.capture.freeze_request
    collection.capture.projection collection.capture.captured_files).mapError .candidates

def readCollection (capture_digest : String) (execution : Execution) : Except TaskError Collection := do
  let collection ← need execution.collection .captureIdentityConflict
  ensure (collection.capture_digest = capture_digest &&
    lib.digest (.capture collection.capture) = capture_digest) .captureIdentityConflict
  return collection

/-- Link the candidate of the capture, also when its commit was answered late. -/
def candidateRecorded (store : Candidates.Store) (capture_digest candidate_id : String)
    (op : Operation) (execution : Execution) : Except TaskError Operation := do
  let collection ← readCollection lib capture_digest execution
  let candidate ← need (← collection.lookup lib store) .candidateBindingMismatch
  ensure (candidate.id = candidate_id) .candidateBindingMismatch
  ensure (collection.candidate.all (· = reference candidate)) .candidateIdentityConflict
  return op.withExecution { execution with
    collection := some { collection with candidate := some (reference candidate) }
    phase := .candidateRecorded }

-- Guards

inductive Guard
  | activation
  | launchPreparation
  | startup
  | effectClaim (runner : ProcessIdentity)
  | capture (runner : ProcessIdentity) (capture_digest : String)

/-- The guards of new effects go by the budget too; a capture is of what was stopped. -/
def Guard.newEffect : Guard → Bool
  | .activation | .launchPreparation | .startup | .effectClaim _ => true
  | .capture .. => false

def Guard.runner? : Guard → Option ProcessIdentity
  | .activation | .launchPreparation | .startup => none
  | .effectClaim runner | .capture runner _ => some runner

def currentClaim (execution : Execution) (runner : ProcessIdentity) : Except TaskError Unit :=
  ensure (execution.phase = .effectClaimed && execution.effect_claim = some (execution.claimOf runner))
    .executionClaimNotCurrent

def Guard.check (guard : Guard) (execution : Execution) : Except TaskError Unit :=
  match guard with
  | .activation =>
    ensure (execution.phase = .prepared && execution.capacity_activation.isNone)
      .executionPreparedRequired
  | .launchPreparation => do
    let launch ← readLaunch lib execution
    ensure (execution.phase = .activated && launch.isSome && execution.effect_claim.isNone)
      .executionLaunchPreparationRequired
  | .startup =>
    ensure (execution.phase = .startUnknown && execution.effect_claim.isNone &&
      execution.host_prepared_id = some execution.intent.start_key &&
      execution.capacity_activation.any (·.revalidated)) .executionStartIntentRequired
  | .effectClaim runner => currentClaim execution runner
  | .capture runner capture_digest => do
    currentClaim execution runner
    let _ ← readCollection lib capture_digest execution

/-- When the budget was checked, and until when it allows the effect. -/
structure BudgetGate where
  (checked_at deadline : Rat)

def budgetGate (w : IntentWorld) (budgets : Budgets) (principal : String) (op : Operation)
    (execution : Execution) : Except TaskError BudgetGate := do
  let run ← w.run
  let _ ← approvedTask run op principal
  let deadline ← (Admission.currentProcess budgets run.budgetRun op.id execution.intent.attempt_id
    w.now).mapError .budget
  let checked_at ← need w.now .exception
  return ⟨checked_at, deadline⟩

def Guard.gate (guard : Guard) (w : IntentWorld) (budgets : Budgets) (principal : String)
    (op : Operation) (execution : Execution) : Except TaskError (Option BudgetGate) :=
  if guard.newEffect then some <$> budgetGate w budgets principal op execution else .ok none

/-- A guard is entered on the operation as it is, and changes nothing of it. -/
def enterGuard (source : GoExecutionSource) (w : IntentWorld) (budgets : Budgets)
    (principal : String) (guard : Guard) (op : Operation) : Except TaskError (Execution × Option BudgetGate) := do
  ensure (guard.runner?.all fun runner => (checkRunner runner).isOk) .executionRunnerInvalid
  let execution ← checkExecution lib (some source) op
  ensureUncancelled op
  let gate ← guard.gate w budgets principal op execution
  guard.check lib execution
  return (execution, gate)

/-- The last comparison before the effect, against what the guard read. -/
def assertEffectDeadline (gate : Option BudgetGate) (now : Reading) : Except TaskError Unit := do
  let gate ← need gate (.budget .claimRequired)
  let now ← need now (.budget .clockRegressed)
  ensure (gate.checked_at ≤ now) (.budget .clockRegressed)
  ensure (now < gate.deadline) (.budget .durationLimit)

end Karajan.Tasks
