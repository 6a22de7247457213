import Karajan.Compiler.Boundaries
import Karajan.Lib.Listing

/-!
# The compiled workflow

One validated bundle compiled into a parameterised template. The order of the
passes is the order in which their refusals are seen.
-/

namespace Karajan.Compiler

open Check
open Scheduling (sorted sortedSet notIn)

def compilerRevision : Nat := 1

def compilerIdentity : String := s!"karajan.workflow-compiler.v{compilerRevision}"

def schemaVersion : String := "workflow.v1"

structure Context where
  manifest : Yaml
  roles : List (String × Yaml)
  (bundle_digest role_digest : String)
  template_digests : Dict String String
  binding_index : Dict String Mapping

/-- The parameterised template; it never contains a concrete run input. -/
structure CompiledWorkflow where
  (schema_version workflow_id : String)
  revision : Int
  (delivery_kind input_contract_ref : String)
  roles : Dict String String
  role_definitions : List CompiledRole
  bindings : Dict String String
  binding_index : Dict String Mapping
  steps : List CompiledStep
  completion : Completion
  scheduling : Option SchedulingDeclaration
  rework : List ReworkRule
  expansions : List Expansion
  delivery_gate : Yaml
  (declared_inputs available_execution_kinds unavailable_execution_kinds : List String)
  diagnostics : List Diagnostic
  (bundle_digest role_digest : String)

variable (L : Library) (ctx : Context)

def declaredInputs (value : Yaml) : Chk (List String) :=
  if value.isNull then .ok []
  else do
    let names ← need value.texts?
      (schema "workflow.yaml" "#/inputs" "expected declared input names")
    ensure (names.all fun name =>
        1 ≤ name.length && name.length ≤ 96 && !name.toList.any L.isspace)
      (schema "workflow.yaml" "#/inputs" "input names are bounded identities")
    return names

def requireRegisteredContract (contract_ref location : String) : Chk Unit :=
  ensure (contractIsRegistered contract_ref)
    (refused "WORKFLOW_CONTRACT_UNREGISTERED" location "contract is not registered in this build")

def kindDiagnostics (kinds : List ExecutionKind) : List Diagnostic :=
  (kinds.filter fun kind => !kind.available).flatMap fun kind => kind.reason_codes.map fun code =>
    located code "workflow.yaml#/steps"
      s!"{kind.ref} is registered without an adapter in this build" none

def kindRefs (kinds : List ExecutionKind) (available : Bool) : List String :=
  sortedSet ((kinds.filter fun kind => kind.available = available).map ExecutionKind.ref)

/-- The roles of the bundle and what the workflow makes of them. -/
structure Cast where
  chosen : Dict String String
  definitions : List CompiledRole
  bindings : Dict String String

def castRoles (workflow : Mapping) : Chk Cast := do
  let available ← indexRoles L ctx.roles ctx.template_digests
  let chosen ← roleMap L (workflow.get "roles") available
  let definitions ← roleDefinitions L chosen available ctx.template_digests
  let bindings ← roleBindings L (workflow.get "bindings") chosen
  return { chosen, definitions, bindings }

def wireSteps (raw_steps : List Mapping) (roles : Cast) (declared_inputs : List String) :
    Chk (List CompiledStep × List ExecutionKind) := do
  let declared ← compileSteps L roles.chosen [] 0 raw_steps
  checkDependencies (declared.map DeclaredStep.step)
  let steps ← checkReferences L declared declared_inputs roles.bindings ctx.binding_index
  checkConditionDependencies steps
  checkBindingsResolved steps ctx.binding_index
  return (steps, declared.map DeclaredStep.kind)

def compileWorkflow (document : Yaml) : Chk CompiledWorkflow := do
  let _ ← need ctx.manifest.map? (schema "manifest.json" "#/" "expected a mapping")
  let workflow ← need document.map? (schema "workflow.yaml" "#/" "expected a mapping")
  refuseUnknownFields L workflow workflowFields "workflow.yaml"
  refuseNestedCredentials L document "workflow.yaml"
  refuseNestedScripts L document "workflow.yaml"
  let declared_inputs ← sorted <$> declaredInputs L (workflow.get "inputs")
  let roles ← castRoles L ctx workflow
  let raw_steps ← rawSteps workflow
  let input_contract_ref ← reference L (workflow.get "input_contract") "workflow.yaml"
    "#/input_contract"
  requireRegisteredContract input_contract_ref "workflow.yaml#/input_contract"
  let (steps, kinds) ← wireSteps L ctx raw_steps roles declared_inputs
  let completion ← completion L (workflow.get "completion") steps
  let delivery_kind ← deliveryKind (workflow.get "delivery_kind")
  let rework ← rework L (workflow.get "rework") steps
  let (expansions, scheduling, dynamic_kinds) ← scheduling L (workflow.get "scheduling")
    roles.chosen declared_inputs roles.bindings ctx.binding_index
  checkDeliveryGate delivery_kind steps completion expansions
  let kinds := kinds ++ dynamic_kinds
  let workflow_id ← text L (workflow.get "id") "workflow.yaml" "#/id"
  let revision ← revision (workflow.get "revision") "workflow.yaml" "#/revision"
  return { workflow_id, revision, delivery_kind, input_contract_ref, steps, completion, scheduling
           rework, expansions, declared_inputs
           schema_version := L.str (workflow.getD "schema_version" (.text schemaVersion))
           roles := roles.chosen
           role_definitions := roles.definitions
           bindings := roles.bindings
           binding_index := ctx.binding_index
           delivery_gate := (Dict.lookup delivery_kind deliveryGates).getD .null
           available_execution_kinds := kindRefs kinds true
           unavailable_execution_kinds := kindRefs kinds false
           diagnostics := kindDiagnostics kinds
           bundle_digest := ctx.bundle_digest
           role_digest := ctx.role_digest }

-- The document of a template

def ofTextMap (items : List (String × String)) : Yaml :=
  ofMap ((sortedItems items).map fun (name, value) => (name, .text value))

def CompiledStep.asDocument (step : CompiledStep) : Yaml :=
  ofMap [("step_id", .text step.step_id), ("execution_kind_ref", .text step.execution_kind_ref),
    ("execution_kind_available", .bool step.execution_kind_available),
    ("role_alias", .ofText? step.role_alias), ("role_ref", .ofText? step.role_ref),
    ("binding_ref", .ofText? step.binding_ref),
    ("binding_identity", ofMapping? step.binding_identity),
    ("depends_on", .ofTexts step.depends_on), ("inputs", ofMap step.inputs),
    ("output_contract_ref", .text step.output_contract_ref),
    ("output_contract_kind", .text step.output_contract_kind), ("required", .bool step.required),
    ("condition", match step.condition with
      | some condition => condition.asDocument
      | none => .null),
    ("join", .text step.join)]

def CompiledWorkflow.asDocument (c : CompiledWorkflow) : Yaml :=
  ofMap [("schema_version", .text c.schema_version), ("compiler_identity", .text compilerIdentity),
    ("workflow", ofMap [("id", .text c.workflow_id), ("revision", .int c.revision),
      ("delivery_kind", .text c.delivery_kind),
      ("input_contract_ref", .text c.input_contract_ref)]),
    ("roles", ofTextMap c.roles.entries),
    ("role_definitions", .list (c.role_definitions.map CompiledRole.asDocument)),
    ("bindings", ofTextMap c.bindings.entries),
    ("resolved_bindings", ofMap ((sortedItems c.binding_index.entries).map fun (ref, resolved) =>
      (ref, .map resolved))),
    ("declared_inputs", .ofTexts c.declared_inputs),
    ("steps", .list (c.steps.map CompiledStep.asDocument)),
    ("completion", ofMap [("required_steps", .ofTexts c.completion.required_steps),
      ("artifact", .text c.completion.artifact)]),
    ("scheduling", match c.scheduling with
      | some scheduling => scheduling.asDocument
      | none => .null),
    ("rework", .list (c.rework.map ReworkRule.asDocument)),
    ("expansions", .list (c.expansions.map Expansion.asDocument)),
    ("delivery_gate", c.delivery_gate),
    ("execution_kinds", ofMap [("available", .ofTexts c.available_execution_kinds),
      ("unavailable", .ofTexts c.unavailable_execution_kinds)])]

end Karajan.Compiler

-- What each pass accepts

namespace Karajan.Compiler

open Check
open Scheduling (sorted sortedSet notIn)

-- Steps

theorem oneOf_ok : oneOf value texts refusal = .ok s ↔ value = .text s ∧ s ∈ texts := by
  simp only [oneOf, bind_ok, ensure_ok, need_ok, pure_ok, Yaml.text?_eq_some]
  constructor
  · rintro ⟨_, _, _, hv, _, hs, rfl⟩
    exact ⟨hv, by simpa using hs⟩
  · rintro ⟨rfl, hs⟩
    exact ⟨(), rfl, s, rfl, (), by simpa using hs, rfl⟩

def registered? (kind_ref : String) : Option ExecutionKind := registry.find? fun kind => kind.ref = kind_ref

theorem kindFor_ok : kindFor kind_ref location = .ok kind ↔ registered? kind_ref = some kind := by
  rw [kindFor, need_ok]
  rfl

theorem registered?_ref (h : registered? kind_ref = some kind) : kind.ref = kind_ref := by
  simpa using List.find?_some h

theorem stepRole_ok (h : stepRole L step roles kind location step_id = .ok (role_alias, role_ref)) :
    step.get "role" = .ofText? role_alias ∧ role_ref = role_alias.bind roles.get? := by
  unfold stepRole at h
  split at h
  case h_1 hnull =>
    simp only [bind_ok, pair_ok] at h
    obtain ⟨_, -, rfl, rfl⟩ := h
    exact ⟨hnull, rfl⟩
  · simp only [bind_ok, need_ok, pair_ok] at h
    obtain ⟨name, hname, ref, href, rfl, rfl⟩ := h
    exact ⟨text_ok hname, href.symm⟩

theorem dependencies_ok (h : dependencies step location step_id = .ok declared) :
    step.getD "depends_on" (.list []) = .ofTexts declared ∧ step_id ∉ declared := by
  simp only [dependencies, bind_ok, need_ok, ensure_ok, pure_ok, Yaml.texts?_eq_some] at h
  obtain ⟨_, hd, _, -, _, hself, rfl⟩ := h
  exact ⟨hd, by simpa using hself⟩

theorem checkOutputContract_ok (h : checkOutputContract kind contract_ref location step_id = .ok output) :
    (contractSchema? contract_ref).map ContractSchema.kind = some output := by
  simp only [checkOutputContract, bind_ok, need_ok, ensure_ok, pure_ok] at h
  obtain ⟨schema, hschema, produced, -, _, heq, rfl⟩ := h
  rw [hschema, of_decide_eq_true heq]
  rfl

theorem condition_ok (h : condition L step_id value location = .ok c) :
    value = (c.map Condition.asDocument).getD .null := by
  unfold condition at h
  split at h
  case isTrue hnull => cases h; exact Yaml.isNull_iff.mp hnull
  · obtain ⟨c', hc, rfl⟩ := map_ok.mp h
    exact (expression_ok hc).symm

/-- What a declared step says, as far as the compiler reads it. -/
structure Reads (roles : Dict String String) (m : Mapping) (d : DeclaredStep) : Prop where
  step_id : m.get "id" = .text d.step.step_id
  kind : m.get "execution_kind" = .text d.step.execution_kind_ref
  registered : registered? d.step.execution_kind_ref = some d.kind
  available : d.step.execution_kind_available = d.kind.available
  role : m.get "role" = .ofText? d.step.role_alias
  role_ref : d.step.role_ref = d.step.role_alias.bind roles.get?
  depends_on : m.getD "depends_on" (.list []) = .ofTexts d.step.depends_on
  not_self : d.step.step_id ∉ d.step.depends_on
  contract : m.get "output_contract" = .text d.step.output_contract_ref
  contract_kind : (contractSchema? d.step.output_contract_ref).map ContractSchema.kind =
    some d.step.output_contract_kind
  condition : m.get "condition" = (d.step.condition.map Condition.asDocument).getD .null
  join : m.getD "join" (.text "all_required") = .text d.step.join
  inputs : m.getD "inputs" (.map []) = .map d.raw_inputs
  required : d.step.required = match m.getD "required" (.bool true) with
    | .bool false => false
    | _ => true

theorem compileStep_ok (h : compileStep L roles seen m index = .ok d) :
    Reads roles m d ∧ d.step.step_id ∉ seen := by
  simp only [compileStep, bind_ok, ensure_ok, need_ok, pure_ok, Prod.exists] at h
  obtain ⟨step_id, hid, _, hseen, kind_ref, hkind, kind, hregistered, role_alias, role_ref, hrole,
    depends_on, hdepends, contract, hcontract, contract_kind, hcontract_kind, condition, hcondition,
    join, hjoin, raw_inputs, hinputs, rfl⟩ := h
  have hfound : registered? kind_ref = some kind := kindFor_ok.mp hregistered
  obtain rfl := registered?_ref hfound
  exact ⟨
    { step_id := text_ok hid
      kind := reference_ok hkind
      registered := hfound
      available := rfl
      role := (stepRole_ok hrole).1
      role_ref := (stepRole_ok hrole).2
      depends_on := (dependencies_ok hdepends).1
      not_self := (dependencies_ok hdepends).2
      contract := reference_ok hcontract
      contract_kind := checkOutputContract_ok hcontract_kind
      condition := condition_ok hcondition
      join := (oneOf_ok.mp hjoin).1
      inputs := Yaml.map?_eq_some.mp hinputs
      required := rfl },
    by simpa using hseen⟩

theorem compileSteps_ok (h : compileSteps L roles seen index raw = .ok ds) : List.Forall₂ (Reads roles) raw ds ∧
      (∀ d ∈ ds, d.step.step_id ∉ seen) ∧ (ds.map fun d => d.step.step_id).Nodup := by
  induction raw generalizing seen index ds with
  | nil => cases h; exact ⟨.nil, by simp, .nil⟩
  | cons m raw ih =>
    simp only [compileSteps, bind_ok, pure_ok] at h
    obtain ⟨d, hd, others, hothers, rfl⟩ := h
    obtain ⟨hreads, hseen⟩ := compileStep_ok hd
    obtain ⟨hall, hnew, hnodup⟩ := ih hothers
    refine ⟨.cons hreads hall, ?_, ?_⟩
    · intro d' hd'
      rcases List.mem_cons.mp hd' with rfl | hd'
      · exact hseen
      · exact fun hm => hnew d' hd' (List.mem_cons_of_mem _ hm)
    · rw [List.map_cons, List.nodup_cons]
      refine ⟨fun hm => ?_, hnodup⟩
      obtain ⟨d', hd', heq⟩ := List.mem_map.mp hm
      exact hnew d' hd' (by simp [heq])

theorem rawSteps_ok (h : rawSteps workflow = .ok raw) :
    workflow.get "steps" = .list (raw.map .map) ∧ raw ≠ [] := by
  simp only [rawSteps, bind_ok, need_ok, ensure_ok, Yaml.list?_eq_some] at h
  obtain ⟨declared, hdeclared, _, hnonempty, h⟩ := h
  have hraw : declared = raw.map .map := by
    generalize 0 = i at h
    clear hdeclared hnonempty
    induction declared generalizing raw i with
    | nil => cases h; rfl
    | cons step declared ih =>
      obtain ⟨m, rest, hm, hrest, rfl⟩ := each_cons_ok.mp (List.zipIdx_cons ▸ h)
      simp only [need_ok, Yaml.map?_eq_some] at hm
      rw [List.map_cons, hm, ih _ hrest]
  refine ⟨hdeclared.trans (by rw [hraw]), ?_⟩
  rintro rfl
  simp [hraw] at hnonempty

-- Dependencies and references

theorem findCycle_none (h : findCycle steps = none)
    (hknown : ∀ s ∈ steps, ∀ d ∈ s.depends_on, d ∈ steps.map CompiledStep.step_id) (a : String) :
    ¬ Relation.TransGen (Dfs.Below (edges steps)) a a := by
  have hfound : findCycle steps = (Dfs.search (edges steps)
      (Dfs.rounds (edges steps) (steps.map CompiledStep.step_id)) (steps.map CompiledStep.step_id) .empty).found := by
    rw [findCycle]
    cases Dfs.search (edges steps) _ _ .empty <;> rfl
  rw [hfound, Dfs.search_eq_explore] at h
  refine (Dfs.explore_decides (fun node _ target htarget => ?_) fun node hnode => ?_).none_iff.mp h a
  · rw [edges] at htarget
    cases hstep : stepNamed steps node with
    | none => simp [hstep] at htarget
    | some s => exact hknown s (List.mem_of_find?_eq_some hstep) target (by simpa [hstep] using htarget)
  · -- a name that is no step has no edge to leave by
    have hnone : stepNamed steps node = none := by
      rw [stepNamed, List.find?_eq_none]
      intro s hs heq
      exact hnode (List.mem_map.mpr ⟨s, hs, by simpa using heq⟩)
    rw [edges, hnone]
    rfl

theorem checkDependencies_ok (h : checkDependencies steps = .ok u) :
    (∀ s ∈ steps, ∀ d ∈ s.depends_on, d ∈ steps.map CompiledStep.step_id) ∧
      findCycle steps = none := by
  simp only [checkDependencies, bind_ok, refuseAll_ok] at h
  obtain ⟨_, hknown, h⟩ := h
  constructor
  · intro s hs d hd
    have hnil := List.flatMap_eq_nil_iff.mp hknown s hs
    simp only [List.map_eq_nil_iff, List.filter_eq_nil_iff] at hnil
    simpa using hnil d hd
  · split at h
    · assumption
    · cases h

def conditionComparisons (condition : Option Condition) : List (Comparison × String × Literal) :=
  (condition.map Condition.comparisons).getD []

theorem resolveCondition_ok {condition : Option Condition} :
    resolveCondition index step condition = .ok resolved ↔ resolved = condition ∧
      ∀ c ∈ conditionComparisons condition, resolveComparison index step c = .ok () := by
  cases condition with
  | none => simp [resolveCondition, conditionComparisons, eq_comm]
  | some condition =>
    simp only [resolveCondition, bind_ok, pure_ok, conditionComparisons, Option.map_some, Option.getD_some]
    constructor
    · rintro ⟨us, h, rfl⟩
      refine ⟨rfl, fun c hc => ?_⟩
      obtain ⟨_, hok, -⟩ := each_ok h c hc
      exact hok
    · rintro ⟨rfl, h⟩
      exact ⟨_, each_map (g := fun _ => ()) h, rfl⟩

structure Resolves (L : Library) (index : Index) (bindings : Dict String String)
    (binding_index : Dict String Mapping) (d : DeclaredStep) (s : CompiledStep) : Prop where
  inputs : ∃ kind, registered? d.step.execution_kind_ref = some kind ∧
    resolveInputs L index d.step d.raw_inputs kind = .ok s.inputs
  facts : ∀ c ∈ conditionComparisons d.step.condition, resolveComparison index d.step c = .ok ()
  rest : s = { d.step with
    inputs := s.inputs
    binding_ref := bindings.get? (d.step.role_alias.getD "")
    binding_identity := (bindings.get? (d.step.role_alias.getD "")).bind fun reference =>
      if reference = "" then none else binding_index.get? reference }

theorem resolveStep_ok : resolveStep L index bindings binding_index d = .ok s ↔
    Resolves L index bindings binding_index d s := by
  simp only [resolveStep, bind_ok, pure_ok, kindFor_ok, resolveCondition_ok]
  constructor
  · rintro ⟨kind, hkind, inputs, hinputs, _, ⟨rfl, hfacts⟩, rfl⟩
    exact ⟨⟨kind, hkind, hinputs⟩, hfacts, rfl⟩
  · rintro ⟨⟨kind, hkind, hinputs⟩, hfacts, hrest⟩
    exact ⟨kind, hkind, s.inputs, hinputs, _, ⟨rfl, hfacts⟩, hrest.symm⟩

section
variable (h : Resolves L index bindings binding_index d s)
include h

theorem Resolves.step_id : s.step_id = d.step.step_id := by rw [h.rest]

theorem Resolves.depends_on : s.depends_on = d.step.depends_on := by rw [h.rest]

theorem Resolves.condition : s.condition = d.step.condition := by rw [h.rest]

theorem Resolves.output_contract_ref : s.output_contract_ref = d.step.output_contract_ref := by rw [h.rest]

end

theorem checkReferences_ok : checkReferences L declared declared_inputs bindings binding_index = .ok steps ↔
    List.Forall₂ (Resolves L ⟨declared_inputs, declared.map DeclaredStep.step⟩ bindings binding_index)
      declared steps := by
  simp only [checkReferences, each_forall₂, resolveStep_ok]

-- The whole workflow

/-- What the passes make of a workflow on the way to what is compiled. -/
structure Passed where
  workflow : Mapping
  names : List String
  roles : Cast
  raw_steps : List Mapping
  declared : List DeclaredStep
  dynamic_kinds : List ExecutionKind

structure Passed.Holds (L : Library) (ctx : Context) (p : Passed) (c : CompiledWorkflow) : Prop where
  manifest : ∃ m, ctx.manifest = .map m
  fields : refuseUnknownFields L p.workflow workflowFields "workflow.yaml" = .ok ()
  credentials : refuseNestedCredentials L (.map p.workflow) "workflow.yaml" = .ok ()
  scripts : refuseNestedScripts L (.map p.workflow) "workflow.yaml" = .ok ()
  names : declaredInputs L (p.workflow.get "inputs") = .ok p.names
  roles : castRoles L ctx p.workflow = .ok p.roles
  raw_steps : rawSteps p.workflow = .ok p.raw_steps
  contract : reference L (p.workflow.get "input_contract") "workflow.yaml" "#/input_contract" =
    .ok c.input_contract_ref
  registered : contractIsRegistered c.input_contract_ref = true
  declared : compileSteps L p.roles.chosen [] 0 p.raw_steps = .ok p.declared
  dependencies : checkDependencies (p.declared.map DeclaredStep.step) = .ok ()
  references : checkReferences L p.declared (sorted p.names) p.roles.bindings ctx.binding_index = .ok c.steps
  conditions : checkConditionDependencies c.steps = .ok ()
  resolved : checkBindingsResolved c.steps ctx.binding_index = .ok ()
  completion : completion L (p.workflow.get "completion") c.steps = .ok c.completion
  delivery_kind : deliveryKind (p.workflow.get "delivery_kind") = .ok c.delivery_kind
  rework : rework L (p.workflow.get "rework") c.steps = .ok c.rework
  scheduling : scheduling L (p.workflow.get "scheduling") p.roles.chosen (sorted p.names)
    p.roles.bindings ctx.binding_index = .ok (c.expansions, c.scheduling, p.dynamic_kinds)
  gate : checkDeliveryGate c.delivery_kind c.steps c.completion c.expansions = .ok ()
  workflow_id : text L (p.workflow.get "id") "workflow.yaml" "#/id" = .ok c.workflow_id
  revision : revision (p.workflow.get "revision") "workflow.yaml" "#/revision" = .ok c.revision
  rest : c = { c with
    schema_version := L.str (p.workflow.getD "schema_version" (.text schemaVersion))
    roles := p.roles.chosen
    role_definitions := p.roles.definitions
    bindings := p.roles.bindings
    binding_index := ctx.binding_index
    declared_inputs := sorted p.names
    delivery_gate := (Dict.lookup c.delivery_kind deliveryGates).getD .null
    available_execution_kinds := kindRefs (p.declared.map DeclaredStep.kind ++ p.dynamic_kinds) true
    unavailable_execution_kinds := kindRefs (p.declared.map DeclaredStep.kind ++ p.dynamic_kinds) false
    diagnostics := kindDiagnostics (p.declared.map DeclaredStep.kind ++ p.dynamic_kinds)
    bundle_digest := ctx.bundle_digest
    role_digest := ctx.role_digest }

theorem compileWorkflow_ok : compileWorkflow L ctx document = .ok c ↔
    ∃ p : Passed, document = .map p.workflow ∧ p.Holds L ctx c := by
  simp only [compileWorkflow, wireSteps, requireRegisteredContract, bind_ok, map_ok, pure_ok,
    need_ok, ensure_ok, Yaml.map?_eq_some, Prod.exists, Prod.mk.injEq]
  constructor
  · rintro ⟨m, hm, workflow, rfl, _, hfields, _, hcredentials, _, hscripts, _, ⟨names, hnames, rfl⟩,
      roles, hroles, raw_steps, hraw, contract, hcontract, _, hregistered, steps, kinds,
      ⟨declared, hdeclared, _, hdependencies, _, hreferences, _, hconditions, _, hresolved, rfl, rfl⟩,
      completion, hcompletion, delivery_kind, hdelivery, rework, hrework, expansions, scheduling,
      dynamic_kinds, hscheduling, _, hgate, workflow_id, hid, revision, hrevision, rfl⟩
    exact ⟨⟨workflow, names, roles, raw_steps, declared, dynamic_kinds⟩, rfl,
      ⟨⟨m, hm⟩, hfields, hcredentials, hscripts, hnames, hroles, hraw, hcontract, hregistered,
        hdeclared, hdependencies, hreferences, hconditions, hresolved, hcompletion, hdelivery,
        hrework, hscheduling, hgate, hid, hrevision, rfl⟩⟩
  · rintro ⟨p, rfl, ⟨⟨m, hm⟩, hfields, hcredentials, hscripts, hnames, hroles, hraw, hcontract,
      hregistered, hdeclared, hdependencies, hreferences, hconditions, hresolved, hcompletion,
      hdelivery, hrework, hscheduling, hgate, hid, hrevision, hrest⟩⟩
    exact ⟨m, hm, p.workflow, rfl, (), hfields, (), hcredentials, (), hscripts, _,
      ⟨p.names, hnames, rfl⟩, p.roles, hroles, p.raw_steps, hraw, _, hcontract, (), hregistered, _, _,
      ⟨p.declared, hdeclared, (), hdependencies, _, hreferences, (), hconditions, (), hresolved, rfl,
        rfl⟩, _, hcompletion, _, hdelivery, _, hrework, _, _, _, hscheduling, (), hgate, _, hid, _,
      hrevision, hrest.symm⟩

/-- A compiled step, with the declared step and the part of the document it is of. -/
structure StepOf (L : Library) (ctx : Context) (p : Passed) (m : Mapping) (s : CompiledStep) : Prop where
  declared : ∃ d ∈ p.declared, Reads p.roles.chosen m d ∧
    Resolves L ⟨sorted p.names, p.declared.map DeclaredStep.step⟩ p.roles.bindings
      ctx.binding_index d s

theorem Passed.Holds.steps (h : p.Holds L ctx c) : List.Forall₂ (StepOf L ctx p) p.raw_steps c.steps := by
  obtain ⟨hreads, -, -⟩ := compileSteps_ok h.declared
  have hresolves := checkReferences_ok.mp h.references
  have hcompose : ∀ {raw ds ss}, (∀ d ∈ ds, d ∈ p.declared) →
      List.Forall₂ (Reads p.roles.chosen) raw ds →
      List.Forall₂ (Resolves L ⟨sorted p.names, p.declared.map DeclaredStep.step⟩ p.roles.bindings
        ctx.binding_index) ds ss → List.Forall₂ (StepOf L ctx p) raw ss := by
    intro raw ds ss hmem hr
    induction hr generalizing ss with
    | nil => rintro ⟨⟩; exact .nil
    | cons hread _ ih =>
      rintro (_ | ⟨hresolve, hrest⟩)
      exact .cons ⟨_, hmem _ (by simp), hread, hresolve⟩
        (ih (fun d hd => hmem d (List.mem_cons_of_mem _ hd)) hrest)
  exact hcompose (fun _ hd => hd) hreads hresolves

-- Samples

/-- The library, as it is on unaccented lower-case text and the revision `1`. -/
def sampleLibrary : Library where
  isspace c := c = ' '
  casefold s := s
  parseInt s := if s = "1" then some 1 else none
  str
    | .text s => s
    | _ => ""
  contentDigest _ := none
  str_text _ := rfl

def sampleContext : Context where
  manifest := .map []
  roles := []
  bundle_digest := ""
  role_digest := ""
  template_digests := .empty
  binding_index := .empty

def sampleStep (step_id kind contract : String) (more : List (String × Yaml)) : Yaml :=
  ofMap ([("id", .text step_id), ("execution_kind", .text kind), ("output_contract", .text contract)] ++ more)

def sampleWorkflow (delivery_kind : String) (steps : List Yaml) (producer : String) : Yaml :=
  ofMap [("id", .text "w"), ("revision", .int 1), ("delivery_kind", .text delivery_kind),
    ("input_contract", .text "text@1"), ("inputs", .ofTexts ["input.a"]), ("steps", .list steps),
    ("completion", ofMap [("required_steps", .ofTexts [producer]), ("artifact", .text (producer ++ ".output"))])]

def publishing : Yaml := sampleWorkflow "pr" [sampleStep "s" "publish_pr@1" "repair-patch@1" []] "s"

end Karajan.Compiler

-- The delivery gate

namespace Karajan.Compiler

open Listing (exists_left)
open Check
open Scheduling (sorted sortedSet notIn)

/-- The gate of the declared target, read off the compiled workflow. -/
structure Gated (c : CompiledWorkflow) : Prop where
  published : c.delivery_kind = "pr" → (∃ s ∈ c.steps, s.publishes = true) ∧
    ∀ s ∈ c.steps, s.publishes = true →
      s.required = true ∧ s.condition = none ∧ s.step_id ∈ c.completion.required_steps
  unpublished : c.delivery_kind ≠ "pr" → (∀ s ∈ c.steps, s.publishes = false) ∧
    ∀ e ∈ c.expansions, "external_write" ∉ e.side_effects
  artifact : ∃ s ∈ c.steps, c.completion.artifact = s.step_id ++ ".output" ∧
    s.required = true ∧ s.condition = none ∧
    ∃ kind, Dict.lookup c.delivery_kind deliveryArtifactKind = some kind ∧
      (contractSchema? s.output_contract_ref).map ContractSchema.kind = some kind

theorem stepNamed_some (h : stepNamed steps name = some s) : s ∈ steps ∧ s.step_id = name :=
  ⟨List.mem_of_find?_eq_some h, by simpa using List.find?_some h⟩

-- Completion

theorem completionDiagnostics_nil (h : completionDiagnostics L steps name = []) :
    ∃ s, name = .text s.step_id ∧ stepNamed steps s.step_id = some s ∧
      s.required = true ∧ s.condition = none := by
  unfold completionDiagnostics at h
  split at h
  · cases h
  case h_2 s hs =>
    obtain ⟨s', hname, hfound⟩ := Option.bind_eq_some_iff.mp hs
    obtain ⟨-, rfl⟩ := stepNamed_some hfound
    simp only [List.append_eq_nil_iff, ite_eq_left_iff, reduceCtorEq, imp_false, Bool.not_eq_true,
      Bool.not_eq_false, Option.isNone_iff_eq_none, not_not] at h
    exact ⟨s, Yaml.text?_eq_some.mp hname, hfound, h.1, h.2⟩

theorem artifactProducer_some (h : artifactProducer artifact = some name) : artifact = name ++ ".output" := by
  unfold artifactProducer at h
  split at h
  case isTrue hsuffix =>
    cases h
    exact (dropEnd_append hsuffix).symm
  · cases h

/-- Every required step is one of the steps, required and without a condition, and the
artifact is the output of one of them. -/
theorem completion_ok (h : completion L value steps = .ok k) :
    (∀ name ∈ k.required_steps, ∃ s, stepNamed steps name = some s ∧
      s.required = true ∧ s.condition = none) ∧
    ∃ name ∈ k.required_steps, k.artifact = name ++ ".output" := by
  simp only [completion, bind_ok, need_ok, ensure_ok, pure_ok, refuseAll_ok] at h
  obtain ⟨_, -, m, -, declared, -, _, -, _, hall, artifact, hartifact, producer, hproducer, _,
    hrequired, rfl⟩ := h
  refine ⟨fun name hname => ?_, producer, by simpa using hrequired, ?_⟩
  · obtain ⟨value, hvalue, htext⟩ := List.mem_filterMap.mp hname
    obtain ⟨s, rfl, hs⟩ := completionDiagnostics_nil (List.flatMap_eq_nil_iff.mp hall value hvalue)
    cases htext
    exact ⟨s, hs⟩
  · exact artifactProducer_some (Option.filter_eq_some_iff.mp hproducer).1

-- The gate itself

theorem checkPublisher_ok (h : checkPublisher required_steps s = .ok u) :
    s.required = true ∧ s.condition = none ∧ s.step_id ∈ required_steps := by
  simp only [checkPublisher, bind_ok, ensure_ok, Option.isNone_iff_eq_none] at h
  obtain ⟨_, hrequired, _, hcondition, hlisted⟩ := h
  exact ⟨hrequired, hcondition, by simpa using hlisted⟩

theorem checkPublishers_ok (h : checkPublishers "pr" publishers k = .ok u) : publishers ≠ [] ∧ ∀ s ∈ publishers,
      s.required = true ∧ s.condition = none ∧ s.step_id ∈ k.required_steps := by
  simp only [checkPublishers, if_pos, bind_ok, ensure_ok, pure_ok] at h
  obtain ⟨_, hsome, us, hall, -⟩ := h
  refine ⟨by simpa using hsome, fun s hs => ?_⟩
  obtain ⟨_, hok, -⟩ := each_ok hall s hs
  exact checkPublisher_ok hok

theorem deliveryKind_ok (h : deliveryKind value = .ok delivery_kind) :
    ∃ kind, Dict.lookup delivery_kind deliveryArtifactKind = some kind := by
  have hmem : delivery_kind ∈ ["pr", "patch", "report"] := (oneOf_ok.mp h).2
  simp only [List.mem_cons, List.not_mem_nil, or_false] at hmem
  obtain rfl | rfl | rfl := hmem
  · exact ⟨"candidate", rfl⟩
  · exact ⟨"candidate", rfl⟩
  · exact ⟨"text", rfl⟩

theorem checkDeliveryGate_ok (h : checkDeliveryGate delivery_kind steps k expansions = .ok u) :
    (delivery_kind ≠ "pr" → ∀ s ∈ steps, s.publishes = false) ∧
    (∀ e ∈ expansions, "external_write" ∉ e.side_effects) ∧
    checkPublishers delivery_kind (steps.filter CompiledStep.publishes) k = .ok () ∧
    checkArtifactKind delivery_kind
      (stepNamed steps (dropEnd outputSuffix.toList.length k.artifact)) = .ok () := by
  simp only [checkDeliveryGate, bind_ok, refuseAll_ok] at h
  obtain ⟨_, hmismatch, us, hexpansions, _, hpublishers, hartifact⟩ := h
  refine ⟨fun hkind s hs => ?_, fun e he => ?_, hpublishers, hartifact⟩
  · rw [if_neg hkind, List.map_eq_nil_iff, List.filter_eq_nil_iff] at hmismatch
    simpa using hmismatch s hs
  · obtain ⟨_, hok, -⟩ := each_ok hexpansions e he
    simpa [ensure_ok] using hok

-- Accepted workflows

theorem Passed.Holds.contract_kind {p : Passed} (h : p.Holds L ctx c) (hs : s ∈ c.steps) :
    (contractSchema? s.output_contract_ref).map ContractSchema.kind = some s.output_contract_kind := by
  obtain ⟨m, -, d, -, hreads, hresolves⟩ := exists_left h.steps hs
  rw [hresolves.rest]
  exact hreads.contract_kind

theorem delivery_gate_kept (h : compileWorkflow L ctx document = .ok c) : Gated c := by
  obtain ⟨p, -, hp⟩ := compileWorkflow_ok.mp h
  obtain ⟨hunpublished, hexpansions, hpublishers, hartifact⟩ := checkDeliveryGate_ok hp.gate
  obtain ⟨hrequired, name, hname, hproducer⟩ := completion_ok hp.completion
  obtain ⟨kind, hkind⟩ := deliveryKind_ok hp.delivery_kind
  refine ⟨fun hpr => ?_, fun hother => ⟨hunpublished hother, hexpansions⟩, ?_⟩
  · rw [hpr] at hpublishers
    obtain ⟨hsome, hall⟩ := checkPublishers_ok hpublishers
    obtain ⟨s, hs⟩ := List.exists_mem_of_ne_nil _ hsome
    exact ⟨⟨s, (List.mem_filter.mp hs).1, (List.mem_filter.mp hs).2⟩,
      fun s hs hpublishes => hall s (List.mem_filter.mpr ⟨hs, hpublishes⟩)⟩
  · obtain ⟨s, hfound, hs, hcondition⟩ := hrequired name hname
    obtain ⟨hmem, rfl⟩ := stepNamed_some hfound
    have hdrop : dropEnd outputSuffix.toList.length c.completion.artifact = s.step_id := by
      rw [hproducer]
      exact dropEnd_of_append
    rw [hdrop, hfound] at hartifact
    simp only [checkArtifactKind, hkind, Option.getD_some, ensure_ok, decide_eq_true_eq] at hartifact
    exact ⟨s, hmem, hproducer, hs, hcondition, kind, hkind, hartifact ▸ hp.contract_kind hmem⟩

theorem delivery_gate_kept_published :
    ∃ c, compileWorkflow sampleLibrary sampleContext publishing = .ok c ∧ Gated c := by
  obtain ⟨c, hc⟩ : ∃ c, compileWorkflow sampleLibrary sampleContext publishing = .ok c :=
    ok_of_isOk (by decide +kernel)
  exact ⟨c, hc, delivery_gate_kept hc⟩

end Karajan.Compiler
