import Karajan.Compiler.Registry

/-!
# Conditions

A condition is a tree of typed operators over comparisons of a fact with a
literal; free text is never one. The facts are resolved once every step is known.
-/

namespace Karajan.Compiler

open Check

inductive Comparison
  | equals
  | not_equals
  | at_least
  | at_most
  deriving DecidableEq

inductive Operator
  | compare (comparison : Comparison)
  | all
  | any
  | not

def Comparison.name : Comparison → String
  | .equals => "equals"
  | .not_equals => "not_equals"
  | .at_least => "at_least"
  | .at_most => "at_most"

def Operator.name : Operator → String
  | .compare comparison => comparison.name
  | .all => "all"
  | .any => "any"
  | .not => "not"

def operators : List Operator :=
  [.compare .equals, .compare .not_equals, .all, .any, .not, .compare .at_least, .compare .at_most]

def operator? (name : Key) : Option Operator := operators.find? fun operator => name = .text operator.name

inductive Literal
  | text (s : String)
  | int (n : Int)
  | bool (b : Bool)

def Literal.value : Literal → Yaml
  | .text s => .text s
  | .int n => .int n
  | .bool b => .bool b

def literal? : Yaml → Option Literal
  | .text s => some (.text s)
  | .int n => some (.int n)
  | .bool b => some (.bool b)
  | _ => none

inductive Condition
  | compare (comparison : Comparison) (fact : String) (literal : Literal)
  | all (items : List Condition)
  | any (items : List Condition)
  | not (item : Condition)

mutual
def Condition.asDocument : Condition → Yaml
  | .compare comparison fact literal =>
    .map [(.text comparison.name, .list [.text fact, literal.value])]
  | .all items => .map [(.text "all", .list (Condition.asDocuments items))]
  | .any items => .map [(.text "any", .list (Condition.asDocuments items))]
  | .not item => .map [(.text "not", item.asDocument)]
def Condition.asDocuments : List Condition → List Yaml
  | [] => []
  | item :: rest => item.asDocument :: Condition.asDocuments rest
end

mutual
def Condition.facts : Condition → List String
  | .compare _ fact _ => [fact]
  | .all items => Condition.factsOf items
  | .any items => Condition.factsOf items
  | .not item => item.facts
def Condition.factsOf : List Condition → List String
  | [] => []
  | item :: rest => item.facts ++ Condition.factsOf rest
end

mutual
def Condition.comparisons : Condition → List (Comparison × String × Literal)
  | .compare comparison fact literal => [(comparison, fact, literal)]
  | .all items => Condition.comparisonsOf items
  | .any items => Condition.comparisonsOf items
  | .not item => item.comparisons
def Condition.comparisonsOf : List Condition → List (Comparison × String × Literal)
  | [] => []
  | item :: rest => item.comparisons ++ Condition.comparisonsOf rest
end

-- Reading a condition

section
variable (L : Library) (step_id : String)

def conditionInvalid (location detail : String) : Failure :=
  refusedAt step_id "WORKFLOW_CONDITION_INVALID" location detail

def fact (value : Yaml) (location : String) : Chk String := do
  let s ← need value.text? (refusedAt step_id "WORKFLOW_CONDITION_FACT_INVALID" location
    "a fact is a bounded identity")
  ensure (1 ≤ s.length && s.length ≤ 512) (refusedAt step_id "WORKFLOW_CONDITION_FACT_INVALID"
    location "a fact is a bounded identity")
  ensure (["requirement.", "input.", "decision.", "result."].any (startsWith s))
    (refusedAt step_id "WORKFLOW_CONDITION_FACT_INVALID" location
      "a fact names an approved input, a trusted result or a human decision")
  return s

def comparison (comparison : Comparison) (operand : Yaml) (location : String) : Chk Condition := do
  let bounded := comparison = .at_least || comparison = .at_most
  let takes := if bounded then "[fact, integer bound]" else "[fact, literal]"
  match operand with
  | .list [left, right] =>
    let name ← fact step_id left location
    let literal ← need (literal? right) (conditionInvalid step_id location
      (if bounded then "bound is not a count" else "literal is not comparable"))
    match bounded, literal with
    | true, .int n =>
      ensure (0 ≤ n) (conditionInvalid step_id location "bound is not a count")
      return .compare comparison name literal
    | true, _ => .error (conditionInvalid step_id location "bound is not a count")
    | false, _ => return .compare comparison name literal
  | _ => .error (conditionInvalid step_id location s!"{comparison.name} takes {takes}")

def conditionTooDeep (location : String) : Failure :=
  refusedAt step_id "WORKFLOW_CONDITION_TOO_DEEP" location "condition nesting"

mutual
def expression (location : String) (depth : Nat) : Yaml → Chk Condition
  | .map [(name, operand)] => do
    ensure (depth ≤ 8) (conditionTooDeep step_id location)
    match operator? name with
    | some (.compare c) => comparison step_id c operand location
    | some .not => Condition.not <$> expression s!"{location}/not" (depth + 1) operand
    | some .all => Condition.all <$> expressionList .all location (depth + 1) operand
    | some .any => Condition.any <$> expressionList .any location (depth + 1) operand
    | none =>
      .error (conditionInvalid step_id s!"{location}/{shown L name}"
        "operator is not part of the declarative condition set")
  | _ => do
    ensure (depth ≤ 8) (conditionTooDeep step_id location)
    .error (conditionInvalid step_id location "a condition is exactly one typed operator")
def expressionList (operator : Operator) (location : String) (depth : Nat) : Yaml → Chk (List Condition)
  | .list (item :: items) => expressions s!"{location}/{operator.name}" depth (item :: items)
  | _ => .error (conditionInvalid step_id location s!"{operator.name} takes a non-empty list")
def expressions (location : String) (depth : Nat) : List Yaml → Chk (List Condition)
  | [] => .ok []
  | item :: rest => do
    let first ← expression location depth item
    let others ← expressions location depth rest
    return first :: others
end

def condition (value : Yaml) (location : String) : Chk (Option Condition) :=
  if value.isNull then .ok none
  else some <$> expression L step_id s!"{location}/condition" 0 value

end

-- A condition is the document it was read from

theorem operator?_eq_some (h : operator? name = some operator) : name = .text operator.name := by
  have hname := List.find?_some h
  simpa using hname

theorem literal?_eq_some (h : literal? value = some literal) : literal.value = value := by
  cases value <;> simp only [literal?, Option.some.injEq, reduceCtorEq] at h <;> subst h <;> rfl

theorem fact_ok (h : fact step_id value location = .ok s) : value = .text s := by
  simp only [fact, bind_ok, need_ok, pure_ok, Yaml.text?_eq_some] at h
  obtain ⟨_, hv, _, _, _, _, rfl⟩ := h
  exact hv

theorem comparison_ok (h : comparison step_id c operand location = .ok compiled) :
    ∃ name literal, compiled = .compare c name literal ∧
      operand = .list [.text name, literal.value] := by
  simp only [comparison] at h
  split at h
  case h_1 left right =>
    simp only [bind_ok, need_ok] at h
    obtain ⟨name, hname, literal, hliteral, h⟩ := h
    have hcompiled : compiled = .compare c name literal := by
      split at h
      · simp only [bind_ok, pure_ok] at h
        exact h.elim fun _ h => h.2.symm
      · cases h
      · exact (pure_ok.mp h).symm
    exact ⟨name, literal, hcompiled, by rw [fact_ok hname, literal?_eq_some hliteral]⟩
  · cases h

mutual
theorem expression_ok (h : expression L step_id location depth value = .ok c) : c.asDocument = value := by
  match value with
  | .map [(name, operand)] =>
    simp only [expression, bind_ok] at h
    obtain ⟨_, -, h⟩ := h
    split at h
    case h_1 c' hop =>
      obtain ⟨fact, literal, rfl, rfl⟩ := comparison_ok h
      rw [operator?_eq_some hop, Condition.asDocument]
      rfl
    case h_2 hop =>
      obtain ⟨item, hitem, rfl⟩ := map_ok.mp h
      rw [operator?_eq_some hop, Condition.asDocument, expression_ok hitem]
      rfl
    case h_3 hop | h_4 hop =>
      obtain ⟨items, hitems, rfl⟩ := map_ok.mp h
      rw [operator?_eq_some hop, Condition.asDocument, expressionList_ok hitems]
      rfl
    · cases h
  | .null | .bool _ | .int _ | .text _ | .other _ | .list _ | .map [] | .map (_ :: _ :: _) =>
    simp [expression, bind_ok] at h
theorem expressionList_ok (h : expressionList L step_id operator location depth operand = .ok cs) :
    .list (Condition.asDocuments cs) = operand := by
  match operand with
  | .list (item :: items) =>
    rw [expressions_ok h]
  | .list [] | .null | .bool _ | .int _ | .text _ | .other _ | .map _ => cases h
theorem expressions_ok (h : expressions L step_id location depth items = .ok cs) :
    Condition.asDocuments cs = items := by
  match items with
  | [] => cases h; rfl
  | item :: rest =>
    simp only [expressions, bind_ok, pure_ok] at h
    obtain ⟨first, hfirst, others, hothers, rfl⟩ := h
    rw [Condition.asDocuments, expression_ok hfirst, expressions_ok hothers]
end

end Karajan.Compiler

-- Roles and bindings

namespace Karajan.Compiler

open Check
open Scheduling (sorted sortedSet notIn)

/-- One resolved role, frozen into the identity of the template. -/
structure CompiledRole where
  (role_alias role_ref display_name digest : String)
  (responsibilities stop_conditions required_capabilities : List String)
  tool_constraints : Mapping
  (input_contract_ref output_contract_ref instruction_template_ref : Option String)
  (instruction_template_digest : Option String)
  independence_requirements : Mapping

def sortedItems (items : List (String × α)) : List (String × α) := items.insertionSort fun a b => a.1 ≤ b.1

def sortedMapping (m : Mapping) : Mapping := m.insertionSort fun a b => a.1.text?.getD "" ≤ b.1.text?.getD ""

def ofMap (items : List (String × Yaml)) : Yaml := .map (items.map fun (name, value) => (.text name, value))

def CompiledRole.asDocument (role : CompiledRole) : Yaml :=
  ofMap [("alias", .text role.role_alias), ("role_ref", .text role.role_ref),
    ("display_name", .text role.display_name), ("digest", .text role.digest),
    ("responsibilities", .ofTexts role.responsibilities),
    ("stop_conditions", .ofTexts role.stop_conditions),
    ("required_capabilities", .ofTexts role.required_capabilities),
    ("tool_constraints", .map (sortedMapping role.tool_constraints)),
    ("input_contract_ref", .ofText? role.input_contract_ref),
    ("output_contract_ref", .ofText? role.output_contract_ref),
    ("instruction_template_ref", .ofText? role.instruction_template_ref),
    ("instruction_template_digest", .ofText? role.instruction_template_digest),
    ("independence_requirements", .map (sortedMapping role.independence_requirements))]

variable (L : Library)

-- Role files

def independenceRequirements : List String := ["non_author", "new_context", "different_model_family"]

def requireTexts (document : Mapping) (name field_name : String) : Chk Unit := do
  let _ ← need (document.getD field_name (.list [])).texts?
    (schema name s!"#/{field_name}" "must be a list of text")

def checkIndependence (name : String) : Key × Yaml → Chk Unit
  | (.text key, .bool _) =>
    ensure (independenceRequirements.contains key)
      (schema name "#/independence_requirements"
        "an independence requirement must be one of the declared set")
  | (key, _) =>
    .error (if independenceRequirements.map Key.text |>.contains key then
        schema name ("#/independence_requirements/" ++ key.text?.getD "")
          "an independence requirement is a boolean declaration"
      else schema name "#/independence_requirements"
        "an independence requirement must be one of the declared set")

def checkRoleContract (document : Mapping) (name contract_field : String) : Chk Unit :=
  match document.get contract_field with
  | .null => .ok ()
  | declared => do
    let pinned ← reference L declared name s!"#/{contract_field}"
    ensure (contractIsRegistered pinned)
      (refused "WORKFLOW_CONTRACT_UNREGISTERED" s!"{name}#/{contract_field}"
        "a role contract must be a registered supported contract")

def checkTemplate (digests : Dict String String) (document : Mapping) (name : String) : Chk Unit :=
  match document.get "instruction_template_ref" with
  | .null => .ok ()
  | .text template => do
    ensure (registeredInstructionTemplates.contains template)
      (refused "WORKFLOW_TEMPLATE_UNRESOLVED" s!"{name}#/instruction_template_ref"
        "an instruction template must be one of the supported templates")
    ensure (digests.contains template)
      (refused "WORKFLOW_TEMPLATE_MISSING" template
        "the referenced instruction template is not part of this bundle")
  | _ =>
    .error (refused "WORKFLOW_TEMPLATE_UNRESOLVED" s!"{name}#/instruction_template_ref"
      "an instruction template must be one of the supported templates")

def indexRole (digests : Dict String String) (indexed : Dict String Mapping) :
    String × Yaml → Chk (Dict String Mapping)
  | (name, document) => do
    let document ← need document.map? (schema name "#/" "role file must be a mapping")
    refuseUnknownFields L document roleFields name
    refuseNestedCredentials L (.map document) name
    refuseNestedScripts L (.map document) name
    let role_id ← text L (document.get "id") name "#/id"
    let pinned_revision ← revision (document.get "revision") name "#/revision"
    let reference := s!"role:{role_id}@{pinned_revision}"
    ensure (!indexed.contains reference)
      (refused "WORKFLOW_ROLE_DUPLICATE" name "two role files declare one revision")
    requireTexts document name "responsibilities"
    requireTexts document name "stop_conditions"
    requireTexts document name "required_capabilities"
    let _ ← need (document.getD "tool_constraints" (.map [])).map?
      (schema name "#/tool_constraints" "must be a mapping of declared limits")
    let independence ← need (document.getD "independence_requirements" (.map [])).map?
      (schema name "#/independence_requirements" "must be a mapping of declared requirements")
    let _ ← each (checkIndependence name) independence
    checkRoleContract L document name "input_contract_ref"
    checkRoleContract L document name "output_contract_ref"
    checkTemplate digests document name
    return indexed.put reference document

def indexRoles (roles : List (String × Yaml)) (digests : Dict String String) : Chk (Dict String Mapping) :=
  roles.foldlM (indexRole L digests) .empty

-- Aliases and bindings

def roleMap (declared : Yaml) (available : Dict String Mapping) : Chk (Dict String String) := do
  let declared := if declared.isNull then .map [] else declared
  let entries ← need declared.map? (schema "workflow.yaml" "#/roles" "expected a mapping")
  entries.foldlM (fun chosen (name, value) => do
    let role_alias ← text L name.value "workflow.yaml" "#/roles"
    let pinned ← reference L value "workflow.yaml" s!"#/roles/id={role_alias}"
    ensure (available.contains pinned)
      (refusedAt role_alias "WORKFLOW_ROLE_UNRESOLVED" s!"workflow.yaml#/roles/id={role_alias}"
        "the referenced role revision is not part of this bundle")
    return chosen.put role_alias pinned) .empty

def roleDefinition (available : Dict String Mapping) (digests : Dict String String) :
    String × String → Chk CompiledRole
  | (role_alias, reference) => do
    let document := (available.get? reference).getD []
    let display_name ← text L (document.getD "display_name" (.text role_alias)) "workflow.yaml" "#/roles"
    let texts := fun name => ((document.getD name (.list [])).texts?).getD []
    let mapping := fun name => ((document.getD name (.map [])).map?).getD []
    let template := digests.get? (L.str (document.get "instruction_template_ref"))
    let digest ← need (L.contentDigest (ofMap
        [("id", document.get "id"), ("revision", document.get "revision"),
          ("responsibilities", document.getD "responsibilities" (.list [])),
          ("stop_conditions", document.getD "stop_conditions" (.list [])),
          ("required_capabilities", document.getD "required_capabilities" (.list [])),
          ("tool_constraints", document.getD "tool_constraints" (.map [])),
          ("input_contract_ref", document.get "input_contract_ref"),
          ("output_contract_ref", document.get "output_contract_ref"),
          ("instruction_template_ref", document.get "instruction_template_ref"),
          ("instruction", .ofText? template),
          ("independence_requirements", document.getD "independence_requirements" (.map []))]))
      (.refused ⟨"WORKFLOW_CONTENT_NOT_SERIALIZABLE", [], []⟩)
    return { role_alias, role_ref := reference, display_name, digest
             responsibilities := texts "responsibilities"
             stop_conditions := texts "stop_conditions"
             required_capabilities := texts "required_capabilities"
             tool_constraints := mapping "tool_constraints"
             input_contract_ref := (document.get "input_contract_ref").text?
             output_contract_ref := (document.get "output_contract_ref").text?
             instruction_template_ref := (document.get "instruction_template_ref").text?
             instruction_template_digest := template
             independence_requirements := mapping "independence_requirements" }

def roleDefinitions (chosen : Dict String String) (available : Dict String Mapping)
    (digests : Dict String String) : Chk (List CompiledRole) :=
  each (roleDefinition L available digests) (sortedItems chosen.entries)

def roleBindings (declared : Yaml) (roles : Dict String String) : Chk (Dict String String) := do
  let declared := if declared.isNull then .map [] else declared
  let entries ← need declared.map? (schema "workflow.yaml" "#/bindings" "expected a mapping")
  entries.foldlM (fun bindings (name, value) => do
    let role_alias ← text L name.value "workflow.yaml" "#/bindings"
    ensure (roles.contains role_alias)
      (refused "WORKFLOW_ROLE_UNRESOLVED" s!"workflow.yaml#/bindings/id={role_alias}"
        "binding names a role this workflow does not declare")
    let pinned ← reference L value "workflow.yaml" s!"#/bindings/id={role_alias}"
    return bindings.put role_alias pinned) .empty

end Karajan.Compiler
