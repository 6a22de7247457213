import Karajan.Compiler.Roles
import Karajan.Lib.Dfs

/-!
# Steps, dependencies and references

The declared steps are compiled one by one. Only when every one of them is known
are the dependencies checked, the inputs resolved to the steps that produce them
and the facts of the conditions to what they read.
-/

namespace Karajan.Compiler

open Check
open Scheduling (sorted sortedSet notIn)

structure CompiledStep where
  (step_id execution_kind_ref : String)
  execution_kind_available : Bool
  (role_alias role_ref binding_ref : Option String)
  binding_identity : Option Mapping
  depends_on : List String
  inputs : List (String × Yaml)
  (output_contract_ref output_contract_kind : String)
  required : Bool
  condition : Option Condition
  (join location : String)

structure DeclaredStep where
  step : CompiledStep
  kind : ExecutionKind
  raw_inputs : Mapping

variable (L : Library)

-- Compiling the declared steps

def rawSteps (workflow : Mapping) : Chk (List Mapping) := do
  let declared ← need (workflow.get "steps").list?
    (schema "workflow.yaml" "#/steps" "steps are required")
  ensure (!declared.isEmpty) (schema "workflow.yaml" "#/steps" "steps are required")
  each (fun (step, index) =>
    need step.map? (schema "workflow.yaml" s!"#/steps/{index}" "expected a mapping"))
    declared.zipIdx

/-- The selected alias and the fixed role revision it resolves to. -/
def stepRole (step : Mapping) (roles : Dict String String) (kind : ExecutionKind)
    (location step_id : String) : Chk (Option String × Option String) :=
  match step.get "role" with
  | .null => do
    ensure (!kind.requires_role) (refusedAt step_id "WORKFLOW_ROLE_REQUIRED" s!"{location}/role"
      s!"{kind.ref} must name a role")
    return (none, none)
  | declared => do
    let role_alias ← text L declared "workflow.yaml" s!"{location}/role"
    let role_ref ← need (roles.get? role_alias) (refusedAt step_id "WORKFLOW_ROLE_UNRESOLVED"
      s!"{location}/role" "role is not one this workflow declares")
    return (some role_alias, some role_ref)

def dependencies (step : Mapping) (location step_id : String) : Chk (List String) := do
  let declared ← need (step.getD "depends_on" (.list [])).texts?
    (schema location "/depends_on" "dependencies must be a list of step identities")
  ensure (declared.dedup.length = declared.length)
    (refusedAt step_id "WORKFLOW_DEPENDENCY_DUPLICATE" s!"{location}/depends_on"
      "a dependency is declared twice")
  ensure (!declared.contains step_id)
    (refusedAt step_id "WORKFLOW_DEPENDENCY_SELF" s!"{location}/depends_on"
      "a step cannot depend on itself")
  return declared

def joinTexts (texts : List String) : String := ", ".intercalate texts

/-- The artifact kind a kind produces under a contract of the declared kind. -/
def outputKind (kind : ExecutionKind) (contract_ref declared_kind : String)
    (incompatible : String → Failure) : Chk String :=
  if kind.outputs ≠ [] then do
    let produced ← need (kind.outputs.find? fun output => output.contract_ref = contract_ref)
      (incompatible s!"{kind.ref} does not produce this contract")
    return produced.kind
  else if !kind.available then do
    -- a kind without an adapter still names the artifacts it would produce
    ensure (kind.produces.isEmpty || kind.produces.contains declared_kind)
      (incompatible s!"{kind.ref} produces {joinTexts (sortedSet kind.produces)}, not {declared_kind}")
    return declared_kind
  else return declared_kind

/-- The declared kind of the contract; a pairing that contradicts it is refused. -/
def checkOutputContract (kind : ExecutionKind) (contract_ref location step_id : String) : Chk String := do
  let declared ← need (contractSchema? contract_ref)
    (refusedAt step_id "WORKFLOW_CONTRACT_UNREGISTERED" s!"{location}/output_contract"
      "output contract is not registered")
  let incompatible := refusedAt step_id "WORKFLOW_OUTPUT_CONTRACT_INCOMPATIBLE"
    s!"{location}/output_contract"
  let output_kind ← outputKind kind contract_ref declared.kind incompatible
  ensure (output_kind = declared.kind)
    (incompatible s!"{contract_ref} declares {declared.kind}, and {kind.ref} declares {output_kind}")
  return output_kind

def joins : List String := ["all_required", "any_required", "all_committed"]

/-- A value that has to be one of some texts; a list or a mapping cannot be. -/
def oneOf (value : Yaml) (texts : List String) (refusal : Failure) : Chk String := do
  ensure value.hashable .typeError
  let s ← need value.text? refusal
  ensure (texts.contains s) refusal
  return s

def compileStep (roles : Dict String String) (seen : List String) (step : Mapping) (index : Nat) :
    Chk DeclaredStep := do
  let pointer := s!"#/steps/{index}"
  let step_id ← text L (step.get "id") "workflow.yaml" s!"{pointer}/id"
  ensure (!seen.contains step_id)
    (refusedAt step_id "WORKFLOW_STEP_ID_DUPLICATE" s!"workflow.yaml#/steps/id={step_id}"
      "step identity is declared twice")
  let kind_ref ← reference L (step.get "execution_kind") "workflow.yaml"
    s!"{pointer}/execution_kind"
  let location := s!"workflow.yaml#/steps/id={step_id}"
  let kind ← kindFor kind_ref s!"{location}/execution_kind"
  let (role_alias, role_ref) ← stepRole L step roles kind location step_id
  let depends_on ← dependencies step location step_id
  let output_contract_ref ← reference L (step.get "output_contract") "workflow.yaml"
    s!"{pointer}/output_contract"
  let output_contract_kind ← checkOutputContract kind output_contract_ref location step_id
  let condition ← condition L step_id (step.get "condition") location
  let join ← oneOf (step.getD "join" (.text "all_required")) joins
    (schema location "/join" "unsupported join policy")
  let raw_inputs ← need (step.getD "inputs" (.map [])).map?
    (schema location "/inputs" "inputs must be a mapping of typed bindings")
  return { kind, raw_inputs
           step :=
             { step_id, role_alias, role_ref, depends_on, output_contract_ref, condition, join
               location, output_contract_kind
               execution_kind_ref := kind.ref
               execution_kind_available := kind.available
               binding_ref := none
               binding_identity := none
               inputs := []
               -- whatever is not false is true
               required := match step.getD "required" (.bool true) with
                 | .bool false => false
                 | _ => true } }

def compileSteps (roles : Dict String String) (seen : List String) (index : Nat) :
    List Mapping → Chk (List DeclaredStep)
  | [] => .ok []
  | step :: rest => do
    let declared ← compileStep L roles seen step index
    let others ← compileSteps roles (declared.step.step_id :: seen) (index + 1) rest
    return declared :: others

-- Dependencies

section
variable (steps : List CompiledStep)

def stepNamed (step_id : String) : Option CompiledStep := steps.find? fun step => step.step_id = step_id

def edges (step_id : String) : List String := ((stepNamed steps step_id).map CompiledStep.depends_on).getD []

/-- A step is painted grey as it is pushed, the round before it is looked at first. -/
def findCycle : Option (List String) :=
  let nodes := steps.map CompiledStep.step_id
  match Dfs.search (edges steps) (Dfs.rounds (edges steps) nodes) nodes .empty with
  | .finished _ => none
  | .cycle cycle => some cycle
  | .exhausted => some []

def checkDependencies : Chk Unit := do
  let known := steps.map CompiledStep.step_id
  refuseAll (steps.flatMap fun step =>
    (step.depends_on.filter fun dependency => !known.contains dependency).map fun dependency =>
      located "WORKFLOW_DEPENDENCY_UNRESOLVED" s!"{step.location}/depends_on"
        s!"dependency {dependency} is not defined in this workflow" (some step.step_id))
  match findCycle steps with
  | none => return ()
  | some cycle =>
    .error (refusedWith (located "WORKFLOW_DEPENDENCY_CYCLE" "workflow.yaml#/steps"
      ("dependency cycle: " ++ " -> ".intercalate (cycle.take 8)) cycle.head?) [])

end

-- Inputs

structure Index where
  declared_inputs : List String
  steps : List CompiledStep

section
variable (index : Index) (step : CompiledStep)

def declaredInputPrefixes : List String := ["requirement.", "input."]

def isDeclaredInput (value : String) : Bool := declaredInputPrefixes.any (startsWith value)

def outputSuffix : String := ".output"

/-- Resolve one `X.output` reference to a step that is depended on. -/
def artifactReference (value location : String) : Chk String := do
  ensure (1 ≤ value.length && value.length ≤ 512 && !blank L value)
    (refusedAt step.step_id "WORKFLOW_INPUT_REFERENCE_INVALID" location
      "a reference is a bounded identity")
  ensure (!value.toList.contains '/' && !value.toList.contains '\\')
    (refusedAt step.step_id "WORKFLOW_INPUT_PATH_UNSUPPORTED" location
      "input references name a declared identity, never a path")
  ensure (endsWith value outputSuffix)
    (refusedAt step.step_id "WORKFLOW_INPUT_REFERENCE_INVALID" location
      "an artifact reference names step_id.output")
  let producer_id := dropEnd outputSuffix.toList.length value
  let producer ← need (stepNamed index.steps producer_id)
    (refusedAt step.step_id "WORKFLOW_INPUT_REFERENCE_UNRESOLVED" location
      s!"{producer_id} is not a step in this workflow")
  ensure (producer_id ≠ step.step_id)
    (refusedAt step.step_id "WORKFLOW_INPUT_SELF_REFERENCE" location
      "a step cannot consume its own output")
  ensure (step.depends_on.contains producer_id)
    (refusedAt step.step_id "WORKFLOW_INPUT_DEPENDENCY_MISSING" location
      s!"consuming {producer_id}.output requires declaring it in depends_on")
  return producer.output_contract_ref

def contractOf (location : String) (value : Yaml) : Chk String := do
  let s ← need value.text? (refusedAt step.step_id "WORKFLOW_INPUT_INVALID" location
    "a reference is text")
  if (literalText s).isSome then
    ensure (resolvedText s ≠ "") (refusedAt step.step_id "WORKFLOW_INPUT_INVALID" location
      "a marked literal must carry data")
    return "text@1"
  else if isDeclaredInput s then
    ensure (index.declared_inputs.contains s)
      (refusedAt step.step_id "WORKFLOW_INPUT_REFERENCE_UNRESOLVED" location
        s!"{s} is not a declared workflow input")
    return "text@1"
  else artifactReference L index step s location

/-- A declared binding reduced to what the registry contract compares; a name the kind
does not accept is left as it is. -/
def normalizedInput (kind : ExecutionKind) : Key × Yaml → Chk (Key × Yaml)
  | (name, value) =>
    match kind.inputs.find? fun contract => Key.text contract.name = name with
    | none => .ok (name, value)
    | some contract => do
      let location := s!"{step.location}/inputs/id={contract.name}"
      match value with
      | .list items =>
        let contracts ← each (contractOf L index step location) items
        return (name, .ofTexts contracts)
      | .text _ =>
        if contract.accepts ≠ [] then
          let contract_ref ← contractOf L index step location value
          return (name, .text contract_ref)
        else return (name, value)
      | _ => return (name, value)

/-- The bindings stay as the author wrote them, in the order of their names. -/
def resolveInputs (declared : Mapping) (kind : ExecutionKind) : Chk (List (String × Yaml)) := do
  if kind.inputs.isEmpty then
    ensure declared.isEmpty (refusedAt step.step_id "WORKFLOW_INPUT_INVALID"
      s!"{step.location}/inputs" s!"{kind.ref} accepts no declared input")
    return []
  else
    let bound ← each (normalizedInput L index step kind) declared
    validateBindings kind.inputs bound s!"{step.location}/inputs"
    let items := sortedItems (declared.filterMap fun (name, value) => name.text?.map (·, value))
    return items.filter fun (name, _) => (kind.inputs.map InputContract.name).contains name

-- Facts

def checkFact (fact location : String) : Chk FieldType := do
  let refuse := fun code detail => refusedAt step.step_id code location detail
  if isDeclaredInput fact then
    ensure (index.declared_inputs.contains fact)
      (refuse "WORKFLOW_CONDITION_FACT_UNRESOLVED" s!"{fact} is not a declared workflow input")
    return .text
  else if startsWith fact "result." then
    match splitText '.' fact with
    | [_, producer_id, field] =>
      let producer ← need (stepNamed index.steps producer_id)
        (refuse "WORKFLOW_CONDITION_FACT_UNRESOLVED"
          s!"{producer_id} is not a step in this workflow")
      ensure (step.depends_on.contains producer_id)
        (refuse "WORKFLOW_CONDITION_FACT_DEPENDENCY_MISSING"
          s!"reading {producer_id} requires declaring it in depends_on")
      need (contractFieldType producer.output_contract_ref field)
        (refuse "WORKFLOW_CONDITION_FIELD_UNRESOLVED"
          s!"{producer.output_contract_ref} declares no field {field}")
    | _ =>
      .error (refuse "WORKFLOW_CONDITION_FACT_INVALID" "a result fact names result.step_id.field")
  else if startsWith fact "decision." then
    match splitText '.' fact with
    | [_, decision_id] =>
      let _ ← need ((stepNamed index.steps decision_id).filter fun producer =>
          startsWith producer.execution_kind_ref "human_decision@")
        (refuse "WORKFLOW_CONDITION_FACT_UNRESOLVED"
          "a decision fact names a declared human decision step")
      ensure (step.depends_on.contains decision_id)
        (refuse "WORKFLOW_CONDITION_FACT_DEPENDENCY_MISSING"
          s!"reading {decision_id} requires declaring it in depends_on")
      return .text
    | _ => .error (refuse "WORKFLOW_CONDITION_FACT_INVALID" "a decision fact names decision.step_id")
  else
    .error (refuse "WORKFLOW_CONDITION_FACT_INVALID"
      "a fact names an approved input, a trusted result or a human decision")

/-- The type a literal is compared as; whatever is not a whole number is compared as text. -/
def Literal.comparedAs : Literal → FieldType
  | .int _ => .count
  | .text _ | .bool _ => .text

def checkOperandType (comparison : Comparison) (fact_type : FieldType) (literal : Literal)
    (location step_id : String) : Chk Unit := do
  let mismatch := refusedAt step_id "WORKFLOW_CONDITION_TYPE_MISMATCH" location
  if comparison = .at_least || comparison = .at_most then
    ensure (fact_type = .count)
      (mismatch s!"{comparison.name} compares a count, and this fact is {fact_type.name}")
    ensure (literal.comparedAs = .count) (mismatch s!"{comparison.name} takes an integer bound")
  else
    ensure (fact_type = literal.comparedAs)
      (mismatch s!"{comparison.name} compares {fact_type.name} with {literal.comparedAs.name}")

def resolveComparison : Comparison × String × Literal → Chk Unit
  | (comparison, fact, literal) => do
    let location := s!"{step.location}/condition"
    let fact_type ← checkFact index step fact location
    checkOperandType comparison fact_type literal location step.step_id

/-- Every comparison is resolved in the order of the tree, which is rebuilt as it was. -/
def resolveCondition : Option Condition → Chk (Option Condition)
  | none => .ok none
  | some condition => do
    let _ ← each (resolveComparison index step) condition.comparisons
    return some condition

def resolveStep (bindings : Dict String String) (binding_index : Dict String Mapping)
    (declared : DeclaredStep) : Chk CompiledStep := do
  let step := declared.step
  let kind ← kindFor step.execution_kind_ref step.location
  let inputs ← resolveInputs L index step declared.raw_inputs kind
  let condition ← resolveCondition index step step.condition
  let binding_ref := bindings.get? (step.role_alias.getD "")
  return { step with
    inputs, condition, binding_ref
    binding_identity := binding_ref.bind fun reference =>
      if reference = "" then none else binding_index.get? reference }

end

/-- Resolve every input binding and every fact against the real declarations. -/
def checkReferences (declared : List DeclaredStep) (declared_inputs : List String)
    (bindings : Dict String String) (binding_index : Dict String Mapping) : Chk (List CompiledStep) :=
  each (resolveStep L ⟨declared_inputs, declared.map DeclaredStep.step⟩ bindings binding_index)
    declared

def factProducer (fact : String) : Option String :=
  if startsWith fact "result." then
    match splitText '.' fact with
    | [_, producer, _] => some producer
    | _ => none
  else if startsWith fact "decision." then
    match splitText '.' fact with
    | [_, producer] => some producer
    | _ => none
  else none

def conditionFacts (condition : Option Condition) : List String := (condition.map Condition.facts).getD []

/-- What a condition reads is an ordinary dependency of its step. -/
def checkConditionDependencies (steps : List CompiledStep) : Chk Unit := do
  let known := steps.map CompiledStep.step_id
  let _ ← each (fun step => each (fun fact =>
    match factProducer fact with
    | none => .ok ()
    | some producer =>
      if producer = step.step_id then
        ensure (!known.contains producer)
          (refusedAt step.step_id "WORKFLOW_CONDITION_SELF_REFERENCE" s!"{step.location}/condition"
            "a step cannot read its own result")
      else
        ensure (!known.contains producer || step.depends_on.contains producer)
          (refusedAt step.step_id "WORKFLOW_CONDITION_FACT_DEPENDENCY_MISSING"
            s!"{step.location}/condition"
            s!"reading {producer} requires declaring it in depends_on"))
    (conditionFacts step.condition)) steps

def checkBindingsResolved (steps : List CompiledStep) (binding_index : Dict String Mapping) : Chk Unit := do
  let _ ← each (fun step =>
    match step.binding_ref with
    | none => .ok ()
    | some binding_ref =>
      ensure (!startsWith binding_ref "binding:" || binding_index.contains binding_ref)
        (refusedAt step.step_id "WORKFLOW_GATEWAY_BINDING_UNRESOLVED" s!"{step.location}/role"
          "the selected role's binding was not resolved to a fixed revision")) steps

end Karajan.Compiler
