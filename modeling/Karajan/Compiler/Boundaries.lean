import Karajan.Compiler.Steps

/-!
# Completion, delivery, rework and scheduling

What a workflow has to deliver and through which step, the finite rework rules
and the dynamic boundaries it declares.
-/

namespace Karajan.Compiler

open Check
open Scheduling (sorted sortedSet notIn)
variable (L : Library)

-- Completion

structure Completion where
  required_steps : List String
  artifact : String

def completionDiagnostics (steps : List CompiledStep) (name : Yaml) : List Diagnostic :=
  match name.text?.bind (stepNamed steps) with
  | none =>
    [located "WORKFLOW_COMPLETION_INVALID" "workflow.yaml#/completion/required_steps"
      s!"required step {takeText 64 (L.str name)} is not defined" none]
  | some step =>
    let location := s!"workflow.yaml#/completion/required_steps/id={step.step_id}"
    (if step.required then [] else
      [located "WORKFLOW_COMPLETION_OPTIONAL_OBLIGATION" location
        "a required outcome cannot be produced by an optional step" (some step.step_id)]) ++
    (if step.condition.isNone then [] else
      [located "WORKFLOW_COMPLETION_CONDITIONAL_OBLIGATION" location
        "a required outcome cannot be gated behind a condition" (some step.step_id)])

def artifactProducer (artifact : String) : Option String :=
  if endsWith artifact outputSuffix then some (dropEnd outputSuffix.toList.length artifact)
  else none

def completion (value : Yaml) (steps : List CompiledStep) : Chk Completion := do
  ensure (!value.isNull)
    (refused "WORKFLOW_COMPLETION_MISSING" "workflow.yaml#/completion" "required")
  let value ← need value.map? (schema "workflow.yaml" "#/completion" "expected a mapping")
  let undeclared := refused "WORKFLOW_COMPLETION_INVALID"
    "workflow.yaml#/completion/required_steps" "at least one required step must be declared"
  let declared ← need (value.get "required_steps").list? undeclared
  ensure (!declared.isEmpty) undeclared
  refuseAll (declared.flatMap (completionDiagnostics L steps))
  let artifact ← text L (value.get "artifact") "workflow.yaml" "#/completion/artifact"
  let producer ← need ((artifactProducer artifact).filter fun name =>
      (stepNamed steps name).isSome)
    (refused "WORKFLOW_COMPLETION_INVALID" "workflow.yaml#/completion/artifact"
      "the completion artifact must be a declared step output")
  let required_steps := declared.filterMap Yaml.text?
  ensure (required_steps.contains producer)
    (refusedAt producer "WORKFLOW_COMPLETION_INVALID" "workflow.yaml#/completion/artifact"
      "the producing step is not a required step")
  return { required_steps, artifact }

-- Rework

structure ReworkRule where
  (trigger_step outcome : String)
  returns_to : List String
  maximum_rounds : Int
  invalidates : List String

def maximumReworkRounds : Int := 64

def reworkOutcomes : List String := ["changes_requested", "failed", "inconclusive"]

def unresolvedSteps (known names : List String) (location detail : String) : List Diagnostic :=
  (notIn known names).map fun name =>
    located "WORKFLOW_REWORK_UNRESOLVED" s!"{location}/id={name}" detail (some name)

def reworkRule (known : List String) : Yaml × Nat → Chk ReworkRule
  | (rule, index) => do
    let location := s!"workflow.yaml#/rework/{index}"
    let rule ← need rule.map? (schema location "" "expected a mapping")
    let trigger ← need (rule.get "trigger").map? (schema location "/trigger" "needs a step")
    let declared_step ← need (Mapping.find trigger "step")
      (schema location "/trigger" "needs a step")
    let trigger_step ← oneOf declared_step known
      (refusedAt (takeText 64 (L.str declared_step)) "WORKFLOW_REWORK_UNRESOLVED"
        s!"{location}/trigger/step" "the triggering step is not defined")
    let outcome ← oneOf (Mapping.getD trigger "outcome" (.text "changes_requested")) reworkOutcomes
      (schema location "/trigger/outcome" "unsupported outcome")
    let returns ← need (rule.get "returns_to").texts?
      (schema location "/returns_to" "expected a list of steps")
    ensure (!returns.isEmpty) (schema location "/returns_to" "expected a list of steps")
    refuseAll (unresolvedSteps known returns s!"{location}/returns_to"
      "a rework target is not defined")
    let unbounded := refused "WORKFLOW_REWORK_UNBOUNDED" s!"{location}/maximum_rounds"
      s!"a finite bound between 1 and {maximumReworkRounds} is required"
    let maximum_rounds ← need (rule.get "maximum_rounds").int? unbounded
    ensure (1 ≤ maximum_rounds && maximum_rounds ≤ maximumReworkRounds) unbounded
    let invalidates ← need (rule.getD "invalidates" (.list [])).texts?
      (schema location "/invalidates" "expected a list of steps")
    refuseAll (unresolvedSteps known invalidates s!"{location}/invalidates"
      "an invalidated step is not defined")
    return { trigger_step, outcome, maximum_rounds
             returns_to := sorted returns
             invalidates := sorted invalidates }

def rework (value : Yaml) (steps : List CompiledStep) : Chk (List ReworkRule) :=
  if value.isNull then .ok []
  else do
    let rules ← need value.list? (schema "workflow.yaml" "#/rework" "expected a list")
    each (reworkRule L (steps.map CompiledStep.step_id)) rules.zipIdx

def ReworkRule.asDocument (rule : ReworkRule) : Yaml :=
  ofMap [("trigger", ofMap [("step", .text rule.trigger_step), ("outcome", .text rule.outcome)]),
    ("returns_to", .ofTexts rule.returns_to), ("maximum_rounds", .int rule.maximum_rounds),
    ("invalidates", .ofTexts rule.invalidates),
    ("batch_identity", .ofTexts ["run_id", "repair_chain_id", "validation_cycle_id"])]

-- Dynamic boundaries

structure WorkContract where
  (inputs scope : List String)

structure Expansion where
  expansion_id : String
  declared_member_policy : Option Int
  (roles execution_kinds side_effects : List String)
  work_contract : WorkContract

def schedulingActions : List String :=
  ["expand_graph", "bind_role", "set_dependencies", "set_priority", "request_dispatch", "seal"]

def memberPolicy (value : Yaml) (location : String) : Chk (Option Int) :=
  if value.isNull then .ok none
  else do
    let refusal := schema location "/maximum_members"
      "a declared member policy is a positive integer, or omitted"
    let maximum ← need value.int? refusal
    ensure (1 ≤ maximum) refusal
    return some maximum

def workContract (value : Yaml) (declared_inputs : List String) (location : String) : Chk WorkContract := do
  let value ← need value.map? (schema location "/work_contract" "expected a mapping")
  let inputs ← need (value.getD "inputs" (.list [])).texts?
    (schema location "/work_contract/inputs" "expected declared input names")
  refuseAll ((notIn declared_inputs inputs).map fun name =>
    located "WORKFLOW_INPUT_REFERENCE_UNRESOLVED" s!"{location}/work_contract/inputs/id={name}"
      "a work contract may only read declared workflow inputs" none)
  let unlisted := schema location "/work_contract/scope"
    "scope must be a list of declared path patterns"
  let scope ← need (value.getD "scope" (.list [])).texts? unlisted
  ensure (scope.all (· ≠ "")) unlisted
  ensure (scope.all fun pattern =>
      pattern.length ≤ 200 && pattern.toList.all fun c => ' '.toNat ≤ c.toNat)
    (schema location "/work_contract/scope" "scope pattern is not usable")
  return { inputs := sorted inputs, scope := sorted scope }

def expansion (roles : Dict String String) (declared_inputs : List String) :
    Yaml × Nat → Chk (Expansion × List ExecutionKind)
  | (item, index) => do
    let location := s!"workflow.yaml#/scheduling/expansions/{index}"
    let item ← need item.map? (schema location "" "expected a mapping")
    let declared_member_policy ← memberPolicy (item.get "maximum_members") location
    let candidate_roles ← need (item.getD "roles" (.list [])).texts?
      (schema location "/roles" "expected role aliases")
    refuseAll ((notIn roles.keys candidate_roles).map fun name =>
      located "WORKFLOW_ROLE_UNRESOLVED" s!"{location}/roles/id={name}"
        "an expansion may only bind roles this workflow declares" (some name))
    let declared_kinds ← need (item.getD "execution_kinds" (.list [])).texts?
      (schema location "/execution_kinds" "expected execution kind references")
    let kinds ← each (fun kind_ref => do
      let pinned ← reference L (.text kind_ref) "workflow.yaml" s!"{location}/execution_kinds"
      kindFor pinned s!"{location}/execution_kinds") declared_kinds
    let work_contract ← workContract (item.getD "work_contract" (.map [])) declared_inputs location
    let expansion_id ← text L (item.get "id") "workflow.yaml" s!"{location}/id"
    return ({ expansion_id, declared_member_policy, work_contract
              roles := sorted candidate_roles
              execution_kinds := sortedSet (kinds.map ExecutionKind.ref)
              side_effects := sortedSet (kinds.map ExecutionKind.side_effects) }, kinds)

structure AgentPolicy where
  declared : Bool
  maximum : Option Int
  source : String
  policy_ref : Option String

def agentPolicy (value : Yaml) : Chk AgentPolicy :=
  if value.isNull then .ok ⟨false, none, "unspecified", none⟩
  else do
    let value ← need value.map?
      (schema "workflow.yaml" "#/scheduling/agent_policy" "expected a mapping")
    if (value.get "maximum").isNull then
      return ⟨true, none, "declared_without_count", none⟩
    else
      let refusal := schema "workflow.yaml" "#/scheduling/agent_policy/maximum"
        "a declared maximum is a positive integer, or omitted"
      let maximum ← need (value.get "maximum").int? refusal
      ensure (1 ≤ maximum) refusal
      return ⟨true, some maximum, "user_declared", (value.get "policy_ref").text?⟩

def boundedDepth (value : Yaml) : Chk Int :=
  if value.isNull then .ok 0
  else do
    let refusal := schema "workflow.yaml" "#/scheduling/maximum_delegation_depth"
      "a delegation depth must be an explicit small bound"
    let depth ← need value.int? refusal
    ensure (0 ≤ depth && depth ≤ 8) refusal
    return depth

structure SchedulingDeclaration where
  (role_alias role_ref : String)
  binding_ref : Option String
  binding_identity : Option Mapping
  (permitted_role_aliases declared_actions : List String)
  agent_policy : AgentPolicy
  delegation_allowed : Bool
  delegation_maximum_depth : Int

def scheduling (value : Yaml) (roles : Dict String String) (declared_inputs : List String)
    (bindings : Dict String String) (binding_index : Dict String Mapping) :
    Chk (List Expansion × Option SchedulingDeclaration × List ExecutionKind) :=
  if value.isNull then .ok ([], none, [])
  else do
    let value ← need value.map? (schema "workflow.yaml" "#/scheduling" "expected a mapping")
    let undeclared := schema "workflow.yaml" "#/scheduling/role"
      "the scheduling role must be declared here"
    let role_alias ← need (value.get "role").text? undeclared
    let role_ref ← need (roles.get? role_alias) undeclared
    let actions ← need (value.getD "actions" (.list [])).texts?
      (schema "workflow.yaml" "#/scheduling/actions" "expected text")
    refuseAll ((notIn schedulingActions actions).map fun name =>
      located "WORKFLOW_SCHEDULING_ACTION_UNSUPPORTED"
        s!"workflow.yaml#/scheduling/actions/id={name}"
        "a scheduling action must be one of the declared set" none)
    let declared_expansions ← need (value.getD "expansions" (.list [])).list?
      (schema "workflow.yaml" "#/scheduling/expansions" "expected a list")
    let expansions ← each (expansion L roles declared_inputs) declared_expansions.zipIdx
    let agent_policy ← agentPolicy (value.get "agent_policy")
    let delegation_maximum_depth ← boundedDepth (value.get "maximum_delegation_depth")
    let binding_ref := bindings.get? role_alias
    return (expansions.map Prod.fst, some
        { role_alias, role_ref, binding_ref, agent_policy, delegation_maximum_depth
          binding_identity := binding_ref.bind fun reference =>
            if reference = "" then none else binding_index.get? reference
          permitted_role_aliases := sorted roles.keys
          declared_actions := sorted actions
          delegation_allowed := match value.get "allow_delegation" with
            | .bool true => true
            | _ => false },
      expansions.flatMap Prod.snd)

def ofInt? : Option Int → Yaml
  | some n => .int n
  | none => .null

def ofMapping? : Option Mapping → Yaml
  | some (entry :: rest) => .map (entry :: rest)
  | _ => .null

def Expansion.asDocument (e : Expansion) : Yaml := ofMap [("expansion_id", .text e.expansion_id),
    ("declared_member_policy", ofInt? e.declared_member_policy), ("engine_member_cap", .null),
    ("roles", .ofTexts e.roles), ("execution_kinds", .ofTexts e.execution_kinds),
    ("seal_required", .bool true), ("side_effects", .ofTexts e.side_effects),
    ("work_contract", ofMap [("inputs", .ofTexts e.work_contract.inputs),
      ("scope", .ofTexts e.work_contract.scope)])]

def AgentPolicy.asDocument (policy : AgentPolicy) : Yaml :=
  ofMap ([("declared", .bool policy.declared), ("maximum", ofInt? policy.maximum),
    ("source", .text policy.source)] ++
    if policy.maximum.isSome then [("policy_ref", .ofText? policy.policy_ref)] else [])

def SchedulingDeclaration.asDocument (s : SchedulingDeclaration) : Yaml :=
  ofMap [("role_alias", .text s.role_alias), ("role_ref", .text s.role_ref),
    ("binding_ref", .ofText? s.binding_ref),
    ("binding_identity", match s.binding_identity with
      | some identity => .map identity
      | none => .null),
    ("permitted_role_aliases", .ofTexts s.permitted_role_aliases),
    ("declared_actions", .ofTexts s.declared_actions), ("grants_authority", .bool false),
    ("authority_source", .text "scheduler_grant_required"), ("product_agent_limit", .null),
    ("agent_policy", s.agent_policy.asDocument),
    ("delegation", ofMap [("allowed", .bool s.delegation_allowed),
      ("maximum_depth", .int s.delegation_maximum_depth)])]

-- The delivery gate

def deliveryGates : List (String × Yaml) := [("pr", ofMap [("required_checks", .text "project_policy"),
      ("independent_review", .text "required"), ("same_candidate_evidence", .bool true),
      ("publish_executor", .text "trusted_delivery_entrypoint")]),
    ("patch", ofMap [("required_checks", .text "project_policy"),
      ("independent_review", .text "required"), ("same_candidate_evidence", .bool true),
      ("publish_executor", .text "none")]),
    ("report", ofMap [("required_checks", .text "declared_only"),
      ("independent_review", .text "declared_only"), ("same_candidate_evidence", .bool false),
      ("publish_executor", .text "none")])]

/-- The artifact kind the completion artifact of each target has to be. -/
def deliveryArtifactKind : List (String × String) :=
  [("report", "text"), ("patch", "candidate"), ("pr", "candidate")]

def deliveryKind (value : Yaml) : Chk String :=
  oneOf value (deliveryGates.map Prod.fst)
    (refused "WORKFLOW_DELIVERY_KIND_INVALID" "workflow.yaml#/delivery_kind"
      "delivery_kind must be report, patch or pr")

def CompiledStep.publishes (step : CompiledStep) : Bool := startsWith step.execution_kind_ref "publish_pr@"

/-- The remote delivery step of a `pr` workflow is required, unconditional and a required
outcome. -/
def checkPublisher (required_steps : List String) (step : CompiledStep) : Chk Unit := do
  ensure step.required
    (refusedAt step.step_id "WORKFLOW_DELIVERY_GATE_OPTIONAL" step.location
      "the remote delivery step cannot be optional")
  ensure step.condition.isNone
    (refusedAt step.step_id "WORKFLOW_DELIVERY_GATE_CONDITIONAL" s!"{step.location}/condition"
      "the remote delivery step cannot be gated behind a condition")
  ensure (required_steps.contains step.step_id)
    (refusedAt step.step_id "WORKFLOW_DELIVERY_GATE_OMITTED"
      "workflow.yaml#/completion/required_steps"
      "the remote delivery step must be a required outcome")

/-- The declared target and the steps that deliver remotely agree. -/
def checkPublishers (delivery_kind : String) (publishers : List CompiledStep)
    (completion : Completion) : Chk Unit :=
  if delivery_kind = "pr" then do
    ensure (!publishers.isEmpty)
      (refused "WORKFLOW_DELIVERY_GATE_MISSING" "workflow.yaml#/completion"
        "a pr workflow declares its delivery step")
    let _ ← each (checkPublisher completion.required_steps) publishers
  else .ok ()

/-- The contract of the producing step decides, not what its kind could produce. -/
def checkArtifactKind (delivery_kind : String) : Option CompiledStep → Chk Unit
  | none => .ok ()
  | some producer =>
    let required_kind := (Dict.lookup delivery_kind deliveryArtifactKind).getD ""
    ensure (producer.output_contract_kind = required_kind)
      (refusedAt producer.step_id "WORKFLOW_DELIVERY_ARTIFACT_INCOMPATIBLE"
        s!"{producer.location}/output_contract"
        (s!"a {delivery_kind} target needs a {required_kind} artifact, and " ++
          s!"{producer.output_contract_ref} is {producer.output_contract_kind}"))

def checkDeliveryGate (delivery_kind : String) (steps : List CompiledStep)
    (completion : Completion) (expansions : List Expansion) : Chk Unit := do
  let publishers := steps.filter CompiledStep.publishes
  refuseAll (if delivery_kind = "pr" then [] else publishers.map fun step =>
    located "WORKFLOW_DELIVERY_GATE_MISMATCH" s!"{step.location}/execution_kind"
      s!"a {delivery_kind} workflow declares no remote delivery" (some step.step_id))
  let _ ← each (fun e => ensure (!e.side_effects.contains "external_write")
    (refused "WORKFLOW_DELIVERY_GATE_MISMATCH" "workflow.yaml#/scheduling/expansions"
      s!"a {delivery_kind} workflow cannot expand into remote delivery")) expansions
  checkPublishers delivery_kind publishers completion
  checkArtifactKind delivery_kind
    (stepNamed steps (dropEnd outputSuffix.toList.length completion.artifact))

end Karajan.Compiler
