import Karajan.Routing.Selection
import Karajan.Resources.Broker
import Karajan.Lib.Layers

/-!
# Proposals and authorizations

A run fixes what may be proposed in it: the paths, profiles, checks and limits
of its authorization. A plan states an authorization of its own, and tasks. The
second version adds to both what routing is bound by. A field that can only
have one value is left out.
-/

namespace Karajan.Planner

open Capacity (Purpose)
open Execution (Role)
open Routing (Readiness ProfileRef Rulebook HardConstraints RiskPolicy)

-- Authorizations

inductive Delivery
  | none
  | pullRequest
deriving DecidableEq

structure Authorization where
  profile_refs : List ProfileRef
  (read_paths write_paths : List String)
  budget_ref : String
  checks : List String
  delivery : Delivery
  target_branch : String
deriving DecidableEq

structure StagePermission where
  normal : Bool
  quality_indices : List Nat
deriving DecidableEq

structure AuthorizationV2 extends Authorization where
  (channel_ids tools data_destinations required_capabilities : List String)
  currency_limits : Dict String String
  (max_attempt_duration_seconds max_quality_repair_rounds : Nat)
  stage_permissions : Dict String StagePermission

-- Plans

inductive Risk
  | standard
  | critical
deriving DecidableEq

def Risk.text : Risk → String
  | .standard => "standard"
  | .critical => "critical"

structure PlanTask where
  id : String
  revision : Nat
  role : Role
  readiness : Readiness
  complexity : Routing.Class
  risk : Risk
  (paths depends_on acceptance : List String)
  required : Bool
deriving DecidableEq

structure PlanTaskV2 extends PlanTask where
  purpose : Option Purpose
  (domains required_capabilities tools : List String)
  (context_tokens duration_seconds : Nat)
deriving DecidableEq

structure Plan where
  summary : String
  authorization : Authorization
  tasks : List PlanTask

structure PlanV2 where
  summary : String
  authorization : AuthorizationV2
  tasks : List PlanTaskV2

def PlanV2.base (plan : PlanV2) : Plan where
  summary := plan.summary
  authorization := plan.authorization.toAuthorization
  tasks := plan.tasks.map PlanTaskV2.toPlanTask

-- What a run is bound to

structure Budget where
  id : String
  currency_limits : Dict String (Option String)
  max_duration_seconds : Option Int

structure RulebookDocument extends Rulebook where
  id : String
  revision : Nat

structure Configuration where
  rulebook : RulebookDocument
  budgets : List Budget
  approved_profile_refs : List ProfileRef

structure ConfigurationSnapshot where
  digest : String
  configuration : Configuration

/-- What the second version of a policy validates candidates by. -/
structure ValidationPolicy where
  checks : List String
  review : String

structure PolicyRef where
  id : String
  revision : Nat
  digest : String

structure ExecutionPolicy extends PolicyRef where
  (project_id configuration_digest registered_by : String)
  constraints : HardConstraints
  risk_policy : RiskPolicy
  (reserved_output_tokens max_context_tokens : Nat)
  validation : Option ValidationPolicy

/-- What the plans of a run of the second version are judged by. -/
structure RunV2 where
  execution_policy_snapshot : ExecutionPolicy
  configuration_snapshot : ConfigurationSnapshot
  authorization_ceiling : AuthorizationV2

-- The library

structure Library where
  /-- Of routing: the case of letters, and which are printable. -/
  letters : Routing.Library
  numbers : Resources.Library
  /-- The digest of a ceiling in its canonical JSON text. -/
  ceiling_digest : AuthorizationV2 → String
  rulebook_digest : Rulebook → String

-- Errors

inductive PlanError
  | planPathInvalid
  | planScopeExceeded
  | requiredChecksRemoved
  | planGraphInvalid
  | taskRevisionReused
  | validationChecksNotResolved
  | routingAuthorizationExceeded
  | routingRequirementsRemoved
  | routingCashCeilingExceeded
  | routingLimitExceeded
  | routingStageNotAuthorized
  | rulebookNotCompilable
  | taskExecutionRequirementsNotAuthorized
  | taskExecutionRequirementsInvalid
  | amount (fault : Resources.Fault)
  | rulebook (error : Routing.RoutingError)
  /-- An error that no caller expects: a budget or a limit that is missing. -/
  | missing

def PlanError.code : PlanError → String
  | .planPathInvalid => "PLAN_PATH_INVALID"
  | .planScopeExceeded => "PLAN_SCOPE_EXCEEDED"
  | .requiredChecksRemoved => "REQUIRED_CHECKS_REMOVED"
  | .planGraphInvalid => "PLAN_GRAPH_INVALID"
  | .taskRevisionReused => "TASK_REVISION_REUSED"
  | .validationChecksNotResolved => "VALIDATION_CHECKS_NOT_RESOLVED"
  | .routingAuthorizationExceeded => "ROUTING_AUTHORIZATION_EXCEEDED"
  | .routingRequirementsRemoved => "ROUTING_REQUIREMENTS_REMOVED"
  | .routingCashCeilingExceeded => "ROUTING_CASH_CEILING_EXCEEDED"
  | .routingLimitExceeded => "ROUTING_LIMIT_EXCEEDED"
  | .routingStageNotAuthorized => "ROUTING_STAGE_NOT_AUTHORIZED"
  | .rulebookNotCompilable => "RULEBOOK_NOT_COMPILABLE"
  | .taskExecutionRequirementsNotAuthorized => "TASK_EXECUTION_REQUIREMENTS_NOT_AUTHORIZED"
  | .taskExecutionRequirementsInvalid => "TASK_EXECUTION_REQUIREMENTS_INVALID"
  | .amount .amountNotText => "Amounts must be decimal strings, never floats."
  | .amount .amountInvalid => "Invalid decimal amount"
  | .amount .amountNotFinite => "Amounts must be finite."
  | .amount _ => "Amounts require nonnegative, finite, six-place precision."
  | .rulebook error => error.code
  | .missing => "missing"

-- Checking a proposal

open Routing (isPart)
open Check
variable (L : Library)

-- Paths

/-- A relative path in the one spelling that is accepted, in parts. -/
def pathParts (path : String) : Except PlanError (List (List Char)) := do
  let parts := path.toList.splitOn '/'
  ensure (parts.all (isPart L.letters)) .planPathInvalid
  ensure (!path.toList.any (· ∈ ['\\', ':', '*', '?', '[', ']', '<', '>', '|', '"', '\x00']))
    .planPathInvalid
  ensure (path.toList.all L.letters.isprintable) .planPathInvalid
  return parts

/-- The roots are read one after the other, and no further than the first that covers the path. -/
def covered (path : String) (roots : List String) : Except PlanError Bool := do
  let parts ← pathParts L path
  roots.anyM fun root => do
    let stem ← pathParts L root
    return parts.take stem.length = stem

def throughGit (path : String) : Except PlanError Bool := do
  let parts ← pathParts L path
  return parts.any fun part => L.letters.casefold (String.ofList part) = ".git"

-- Authorizations

def authorize (proposed ceiling : Authorization) : Except PlanError Unit := do
  ensure (← proposed.read_paths.allM (covered L · ceiling.read_paths)) .planScopeExceeded
  ensure (← proposed.write_paths.allM (covered L · ceiling.write_paths)) .planScopeExceeded
  ensure (!(← proposed.write_paths.anyM (throughGit L))) .planScopeExceeded
  ensure (proposed.profile_refs.all (· ∈ ceiling.profile_refs)) .planScopeExceeded
  ensure (proposed.budget_ref = ceiling.budget_ref) .planScopeExceeded
  ensure (proposed.target_branch = ceiling.target_branch) .planScopeExceeded
  ensure (proposed.delivery = .none || proposed.delivery = ceiling.delivery) .planScopeExceeded
  ensure (ceiling.checks.all (· ∈ proposed.checks)) .requiredChecksRemoved
  ensure (proposed.checks.all (· ∈ ceiling.checks)) .planScopeExceeded

-- Plans

def Plan.ids (plan : Plan) : List String := plan.tasks.map PlanTask.id

def Plan.dependsOn (plan : Plan) (id : String) : List String :=
  ((plan.tasks.find? (·.id = id)).map PlanTask.depends_on).getD []

def Plan.roots (plan : Plan) (task : PlanTask) : List String :=
  if task.role = .worker then plan.authorization.write_paths else plan.authorization.read_paths

def leavesGit (task : PlanTask) : Except PlanError Bool :=
  if task.role = .worker then (!·) <$> task.paths.anyM (throughGit L) else .ok true

def validateTask (plan : Plan) (task : PlanTask) : Except PlanError Unit := do
  ensure (task.depends_on.Nodup && task.depends_on.all (· ∈ plan.ids)) .planGraphInvalid
  ensure (← leavesGit L task) .planScopeExceeded
  ensure (← task.paths.allM (covered L · (plan.roots task))) .planScopeExceeded

def validatePlan (plan : Plan) (ceiling : Authorization) : Except PlanError Unit := do
  authorize L plan.authorization ceiling
  ensure (decide plan.ids.Nodup) .planGraphInvalid
  let _ ← each (validateTask L plan) plan.tasks
  ensure (Layers.peel plan.ids plan.dependsOn plan.ids.length []) .planGraphInvalid

end Karajan.Planner

-- Binding an approval to routing grants

namespace Karajan.Planner

open Capacity (Purpose)
open Execution (Role)
open Routing (Rule Rulebook ProfileRef HardConstraints compileRulebook)
open Check
variable (L : Library)

-- Authorizations

/-- The checks are among those that the policy validates by, if it states any. -/
def checksResolved (policy : ExecutionPolicy) (checks : List String) : Bool :=
  policy.validation.all fun validation =>
    checks.Nodup && checks.all (· ∈ validation.review :: validation.checks)

/-- Names that both the ceiling and the policy have, none of them twice. -/
def namesAllowed (values ceiling hard : List String) : Bool :=
  values.Nodup && values.all fun name => name ∈ ceiling && name ∈ hard

def units (amount : String) : Except PlanError Nat := (Resources.units L.numbers (.str amount)).mapError .amount

def amountWithin (amount : String) (limit : Option String) : Except PlanError Unit := do
  let limit ← need limit .routingCashCeilingExceeded
  let most ← units L amount
  let bound ← units L limit
  ensure (most ≤ bound) .routingCashCeilingExceeded

def Configuration.budget (config : Configuration) (id : String) : Option Budget :=
  config.budgets.find? (·.id = id)

def ruleOf (book : Rulebook) (id : String) : Option Rule := book.rules.reverse.find? (·.id = id)

def stageAllowed (ceiling : AuthorizationV2) (book : Rulebook) (rule_id : String)
    (grant : StagePermission) : Bool :=
  match ceiling.stage_permissions.get? rule_id, ruleOf book rule_id with
  | some prior, some rule =>
    (!grant.normal || prior.normal) && grant.quality_indices.Nodup &&
    grant.quality_indices.all (· ∈ prior.quality_indices) &&
    grant.quality_indices.all (· < rule.quality_escalation_groups.length)
  | _, _ => false

def validateAuthorization (proposed ceiling : AuthorizationV2) (policy : ExecutionPolicy)
    (config : Configuration) : Except PlanError Unit := do
  ensure (checksResolved policy proposed.checks) .validationChecksNotResolved
  let hard := policy.constraints
  ensure (namesAllowed proposed.channel_ids ceiling.channel_ids hard.channel_ids)
    .routingAuthorizationExceeded
  ensure (namesAllowed proposed.tools ceiling.tools hard.tools) .routingAuthorizationExceeded
  ensure (namesAllowed proposed.data_destinations ceiling.data_destinations hard.data_destinations)
    .routingAuthorizationExceeded
  ensure (proposed.profile_refs.Nodup && proposed.profile_refs.all (· ∈ hard.profile_refs))
    .routingAuthorizationExceeded
  ensure ((ceiling.required_capabilities ++ hard.required_capabilities).all
    (· ∈ proposed.required_capabilities)) .routingRequirementsRemoved
  let budget ← need (config.budget proposed.budget_ref) .missing
  let _ ← each (fun (currency, amount) => each (amountWithin L amount)
    [ceiling.currency_limits.get? currency, (budget.currency_limits.get? currency).join])
    proposed.currency_limits.entries
  let longest ← need budget.max_duration_seconds .missing
  ensure (proposed.max_attempt_duration_seconds ≤ min (ceiling.max_attempt_duration_seconds : Int) longest)
    .routingLimitExceeded
  ensure (proposed.max_quality_repair_rounds ≤
    min ceiling.max_quality_repair_rounds config.rulebook.max_quality_repair_rounds)
    .routingLimitExceeded
  ensure (proposed.stage_permissions.entries.all fun (rule_id, grant) =>
    stageAllowed ceiling config.rulebook.toRulebook rule_id grant) .routingStageNotAuthorized

-- Grants

structure QualityGrant where
  index : Nat
  group : String
  profiles : List ProfileRef

structure StageGrant where
  normal : Dict String (List ProfileRef)
  quality : List QualityGrant

structure RulebookRef where
  id : String
  revision : Nat
  digest : String

structure TaskRequirements where
  revision : Nat
  role : Role
  purpose : Option Purpose
  readiness : Routing.Readiness
  complexity : Routing.Class
  risk : Risk
  (paths domains required_capabilities tools : List String)
  (context_tokens duration_seconds : Nat)

structure Binding where
  execution_policy : PolicyRef
  (project_id registered_by configuration_digest : String)
  rulebook : RulebookRef
  stage_grants : Dict String StageGrant
  authorization_ceiling_digest : String
  task_requirements : Dict String TaskRequirements

section
variable (book : Rulebook) (permitted : List ProfileRef)

def members (group : String) : List ProfileRef := (book.group group).filter (· ∈ permitted)

def stageGrant (rule : Rule) (permission : StagePermission) : StageGrant where
  normal :=
    if permission.normal then
      .ofList (rule.eligible_groups.map fun group => (group, members book permitted group))
    else .empty
  quality := (rule.quality_escalation_groups.zipIdx.filter
    (·.2 ∈ permission.quality_indices)).map fun (group, index) =>
      ⟨index, group, members book permitted group⟩

def stageGrants (authorization : AuthorizationV2) : Dict String StageGrant :=
  .ofList (book.rules.filterMap fun rule =>
    (authorization.stage_permissions.get? rule.id).map fun permission =>
      (rule.id, stageGrant book permitted rule permission))

end

def validateRequirements (policy : ExecutionPolicy) (authorization : AuthorizationV2)
    (task : PlanTaskV2) : Except PlanError Unit := do
  ensure ((task.role = .commander) = task.purpose.isSome) .taskExecutionRequirementsNotAuthorized
  ensure (policy.risk_policy.mapping.contains task.risk.text) .taskExecutionRequirementsNotAuthorized
  ensure (task.tools.all (· ∈ authorization.tools)) .taskExecutionRequirementsNotAuthorized
  ensure (task.context_tokens + policy.reserved_output_tokens ≤ policy.max_context_tokens)
    .taskExecutionRequirementsNotAuthorized
  ensure (task.duration_seconds ≤ authorization.max_attempt_duration_seconds)
    .taskExecutionRequirementsNotAuthorized
  ensure (task.tools.Nodup && task.domains.Nodup && task.required_capabilities.Nodup)
    .taskExecutionRequirementsInvalid

def PlanTaskV2.requirements (task : PlanTaskV2) : TaskRequirements where
  revision := task.revision
  role := task.role
  purpose := task.purpose
  readiness := task.readiness
  complexity := task.complexity
  risk := task.risk
  paths := task.paths
  domains := task.domains
  required_capabilities := task.required_capabilities
  tools := task.tools
  context_tokens := task.context_tokens
  duration_seconds := task.duration_seconds

def permittedRefs (run : RunV2) (plan : PlanV2) : List ProfileRef :=
  plan.authorization.profile_refs.filter (· ∈ run.authorization_ceiling.profile_refs)

def bindingOf (run : RunV2) (plan : PlanV2) (book : Rulebook) : Binding where
  execution_policy := run.execution_policy_snapshot.toPolicyRef
  project_id := run.execution_policy_snapshot.project_id
  registered_by := run.execution_policy_snapshot.registered_by
  configuration_digest := run.configuration_snapshot.digest
  rulebook :=
    { id := run.configuration_snapshot.configuration.rulebook.id
      revision := run.configuration_snapshot.configuration.rulebook.revision
      digest := L.rulebook_digest book }
  stage_grants := stageGrants book (permittedRefs run plan) plan.authorization
  authorization_ceiling_digest := L.ceiling_digest run.authorization_ceiling
  task_requirements := .ofList (plan.tasks.map fun task => (task.id, task.requirements))

def resolveBinding (run : RunV2) (plan : PlanV2) : Except PlanError Binding := do
  let policy := run.execution_policy_snapshot
  let config := run.configuration_snapshot.configuration
  let authorization := plan.authorization
  validateAuthorization L authorization run.authorization_ceiling policy config
  let compiled ← (compileRulebook config.rulebook.toRulebook).mapError .rulebook
  ensure compiled.issues.isEmpty .rulebookNotCompilable
  let _ ← each (validateRequirements policy authorization) plan.tasks
  return bindingOf L run plan compiled.document

end Karajan.Planner
