import Karajan.Lib.Yaml
import Karajan.Scheduling.Values

/-!
# Refusals and the checks every section shares

A refusal carries located diagnostics; a location is relative to the bundle.
Unicode tables, how a value is shown, how a text spells a number and the digest
of a value come from the language's own library and are a parameter.
-/

namespace Karajan.Compiler

open Check

structure Library where
  isspace : Char → Bool
  casefold : String → String
  parseInt : String → Option Int
  str : Yaml → String
  /-- None where the value has no canonical serialisation. -/
  contentDigest : Yaml → Option String
  str_text : ∀ s, str (.text s) = s

structure Diagnostic where
  (code location detail : String)
  step_id : Option String

structure WorkflowError where
  code : String
  diagnostics : List Diagnostic
  fields : List (String × String)

/-- The compiler refuses, or an operation of the language does not apply. -/
inductive Failure
  | refused (error : WorkflowError)
  | typeError

abbrev Chk := Except Failure

def safeLocation (location : String) : String :=
  if ["manifest.json", "workflow.yaml", "roles/", "templates/"].any (startsWith location) then
    location
  else "workflow.yaml#/"

def located (code location detail : String) (step_id : Option String) : Diagnostic :=
  ⟨code, safeLocation location, detail, step_id⟩

def refusedWith (diagnostic : Diagnostic) (more : List Diagnostic) : Failure :=
  .refused ⟨diagnostic.code, diagnostic :: more, []⟩

def refused (code location detail : String) : Failure := refusedWith (located code location detail none) []

def refusedAt (step_id code location detail : String) : Failure :=
  refusedWith (located code location detail (some step_id)) []

def schema (file pointer detail : String) : Failure := refused "WORKFLOW_SCHEMA_INVALID" (file ++ pointer) detail

/-- Every diagnostic is reported; the first one gives the refusal its code. -/
def refuseAll : List Diagnostic → Chk Unit
  | [] => .ok ()
  | diagnostic :: more => .error (refusedWith diagnostic more)

-- Texts and references

variable (L : Library)

def blank (s : String) : Bool := s.toList.all L.isspace

def text (value : Yaml) (file pointer : String) : Chk String := do
  let s ← need value.text? (schema file pointer "invalid text")
  ensure (!blank L s && s.length ≤ 512) (schema file pointer "invalid text")
  return s

def reference (value : Yaml) (file pointer : String) : Chk String := do
  let s ← text L value file pointer
  let (name, revision) ← need (rpartition '@' s)
    (refused "WORKFLOW_REFERENCE_NOT_PINNED" (file ++ pointer)
      "a reference must name an exact revision")
  ensure (!(["latest", "head", "next"].contains (L.casefold name)) &&
      !(["latest", "head", "*", "next"].contains (L.casefold revision)))
    (refused "WORKFLOW_REFERENCE_NOT_PINNED" (file ++ pointer)
      "a latest reference is never resolved at compile or load time")
  let number ← need (L.parseInt revision)
    (refused "WORKFLOW_REFERENCE_INVALID" (file ++ pointer) "revision is not a number")
  ensure (1 ≤ number)
    (refused "WORKFLOW_REFERENCE_INVALID" (file ++ pointer) "revision must be positive")
  return s

def revision (value : Yaml) (file pointer : String) : Chk Int := do
  let n ← need value.int? (schema file pointer "invalid revision")
  ensure (1 ≤ n && n ≤ 1000000) (schema file pointer "invalid revision")
  return n

-- Fields that are refused

def workflowFields : List String :=
  ["schema_version", "id", "revision", "delivery_kind", "input_contract", "inputs", "roles",
    "bindings", "steps", "completion", "scheduling", "rework"]

def roleFields : List String := ["id", "revision", "display_name", "responsibilities", "stop_conditions",
    "required_capabilities", "tool_constraints", "input_contract_ref", "output_contract_ref",
    "instruction_template_ref", "independence_requirements"]

def credentialMarkers : List String :=
  ["api_key", "apikey", "api_secret", "access_key", "secret_key", "private_key", "client_secret",
    "auth_token", "access_token", "refresh_token", "id_token", "session_token", "password",
    "passwd", "passphrase", "credential", "credentials", "bearer", "authorization", "cookie",
    "cookies"]

def credentialReferenceFields : List String := ["secret_ref", "credential_ref", "auth_ref"]

def scriptFieldNames : List String :=
  ["script", "scripts", "shell", "command", "commands", "exec", "eval", "expression",
    "expression_source", "import", "imports", "module", "modules", "entrypoint", "code", "python",
    "javascript"]

def looksLikeCredential : Key → Bool
  | .text name =>
    let folded := L.casefold (stripText L.isspace name)
    let normalised := String.ofList
      (folded.toList.map fun c => if c = '-' || c = ' ' then '_' else c)
    !credentialReferenceFields.contains normalised &&
      credentialMarkers.any fun marker =>
        normalised = marker || endsWith normalised marker || startsWith normalised marker
  | _ => false

def isScript : Key → Bool
  | .text name => scriptFieldNames.contains (L.casefold (stripText L.isspace name))
  | _ => false

def shown (name : Key) : String := L.str name.value

def refuseUnknownFields (document : Mapping) (allowed : List String) (file : String) : Chk Unit :=
  let names := (document.map Prod.fst).insertionSort fun a b => shown L a ≤ shown L b
  refuseAll (names.filterMap fun name =>
    if looksLikeCredential L name then
      some (located "WORKFLOW_CREDENTIAL_FIELD_REFUSED" s!"{file}#"
        ("a declarative bundle references a secret; it never carries credential material " ++
          s!"(field: {takeText 48 (shown L name)})") none)
    else if (allowed.map Key.text).contains name then none
    else some (located "WORKFLOW_FIELD_UNSUPPORTED" s!"{file}#"
      s!"unknown field: {takeText 48 (shown L name)}" none))

def maximumSchemaDepth : Nat := 16

section
variable (refuse : Key → Chk Unit) (file : String)

def boundedNesting (depth : Nat) : Chk Unit :=
  ensure (depth ≤ maximumSchemaDepth) (schema file "" "structure is nested too deeply")

mutual
/-- The walk over every mapping key and every list element of a structure. -/
def refuseNested (depth : Nat) : Yaml → Chk Unit
  | .map entries => do
    boundedNesting file depth
    refuseNestedEntries (depth + 1) entries
  | .list items => do
    boundedNesting file depth
    refuseNestedItems (depth + 1) items
  | _ => boundedNesting file depth
def refuseNestedItems (depth : Nat) : List Yaml → Chk Unit
  | [] => .ok ()
  | item :: rest => do
    refuseNested depth item
    refuseNestedItems depth rest
def refuseNestedEntries (depth : Nat) : Mapping → Chk Unit
  | [] => .ok ()
  | (name, nested) :: rest => do
    refuse name
    refuseNested depth nested
    refuseNestedEntries depth rest
end

end

def refuseNestedCredentials (value : Yaml) (file : String) : Chk Unit :=
  refuseNested (fun name => ensure (!looksLikeCredential L name)
    (refused "WORKFLOW_CREDENTIAL_FIELD_REFUSED" s!"{file}#"
      ("a declarative bundle references a secret; it never carries credential material in a " ++
        s!"nested field (field: {takeText 48 (shown L name)})"))) file 0 value

def refuseNestedScripts (value : Yaml) (file : String) : Chk Unit :=
  refuseNested (fun name => ensure (!isScript L name)
    (refused "WORKFLOW_FIELD_UNSUPPORTED" s!"{file}#"
      ("a declarative structure carries no script, import or executable expression " ++
        s!"(field: {takeText 48 (shown L name)})"))) file 0 value

-- What an accepted value is

variable {L}

theorem refuseAll_ok : refuseAll ds = .ok u ↔ ds = [] := by
  cases ds <;> simp [refuseAll]

theorem text_ok (h : text L value file pointer = .ok s) : value = .text s := by
  simp only [text, bind_ok, need_ok, pure_ok, Yaml.text?_eq_some] at h
  obtain ⟨_, hv, _, _, rfl⟩ := h
  exact hv

theorem reference_ok (h : reference L value file pointer = .ok s) : value = .text s := by
  simp only [reference, bind_ok, pure_ok] at h
  obtain ⟨_, ht, _, _, _, _, _, _, _, _, rfl⟩ := h
  exact text_ok ht

theorem revision_ok (h : revision value file pointer = .ok n) : value = .int n := by
  simp only [revision, bind_ok, need_ok, pure_ok, Yaml.int?_eq_some] at h
  obtain ⟨_, hv, _, _, rfl⟩ := h
  exact hv

end Karajan.Compiler

-- The trusted registry

namespace Karajan.Compiler

open Check
open Scheduling (sorted sortedSet notIn)

-- Contracts

inductive FieldType
  | text
  | count
  deriving DecidableEq

def FieldType.name : FieldType → String
  | .text => "text"
  | .count => "count"

structure ContractSchema where
  (contract_ref kind : String)
  fields : List (String × FieldType)

def contractSchemas : List ContractSchema := [⟨"text@1", "text", [("content", .text), ("digest", .text)]⟩,
    ⟨"sourced-notes@1", "text", [("content", .text), ("digest", .text)]⟩,
    ⟨"comparison-report@1", "text", [("content", .text), ("digest", .text), ("sources", .count)]⟩,
    ⟨"repair-patch@1", "candidate", [("content", .text), ("digest", .text), ("files_changed", .count)]⟩,
    ⟨"review-verdict@1", "decision", [("verdict", .text), ("reason", .text), ("findings", .count)]⟩,
    ⟨"aggregated-report@1", "text", [("content", .text), ("content_digest", .text), ("input_count", .count),
        ("byte_length", .count)]⟩]

def registeredInstructionTemplates : List String :=
  ["templates/researcher.md", "templates/editor.md", "templates/coordinator.md", "templates/reviewer.md"]

def contractSchema? (contract_ref : String) : Option ContractSchema :=
  contractSchemas.find? fun schema => schema.contract_ref = contract_ref

def contractIsRegistered (contract_ref : String) : Bool := (contractSchema? contract_ref).isSome

def contractFieldType (contract_ref field : String) : Option FieldType :=
  (contractSchema? contract_ref).bind fun schema => Dict.lookup field schema.fields

-- Execution kinds

structure OutputContract where
  (contract_ref kind : String)

inductive InputType
  | text
  | reference
  | structured
  deriving DecidableEq

def InputType.name : InputType → String
  | .text => "text"
  | .reference => "reference"
  | .structured => "structured"

/-- The output contracts a reference may name; with none the input is literal text. -/
structure InputContract where
  name : String
  type : InputType
  required : Bool
  accepts : List String

structure ExecutionKind where
  kind_id : String
  revision : Nat
  available : Bool
  inputs : List InputContract
  outputs : List OutputContract
  side_effects : String
  reason_codes : List String
  requires_role : Bool
  produces : List String

def ExecutionKind.ref (kind : ExecutionKind) : String := s!"{kind.kind_id}@{kind.revision}"

def aggregated : ExecutionKind where
  kind_id := "artifact_aggregate"
  revision := 1
  available := true
  inputs := [⟨"sources", .text, true,
        ["text@1", "sourced-notes@1", "comparison-report@1", "aggregated-report@1"]⟩,
      ⟨"title", .text, false, []⟩]
  outputs := [⟨"aggregated-report@1", "text"⟩]
  side_effects := "local_artifact"
  reason_codes := []
  requires_role := false
  produces := ["text", "report"]

def declaredProduces : List (String × List String) := [("agent_task", ["text", "structured", "candidate"]),
    ("deterministic_check", ["decision", "structured"]),
    ("human_decision", ["decision"]),
    ("candidate_integrate", ["candidate"]),
    ("publish_pr", ["candidate", "pr"])]

def declaredKind (name : String) : ExecutionKind where
  kind_id := name
  revision := 1
  available := false
  inputs := []
  outputs := []
  side_effects := if name = "publish_pr" then "external_write" else "workspace_write"
  reason_codes := ["WORKFLOW_KIND_ADAPTER_NOT_IMPLEMENTED"]
  requires_role := name = "agent_task"
  produces := (Dict.lookup name declaredProduces).getD []

def registry : List ExecutionKind :=
  aggregated :: ["agent_task", "deterministic_check", "human_decision", "candidate_integrate",
    "publish_pr"].map declaredKind

def kindFor (execution_kind_ref location : String) : Chk ExecutionKind :=
  need (registry.find? fun kind => kind.ref = execution_kind_ref)
    (.refused ⟨"WORKFLOW_KIND_UNREGISTERED", [located "WORKFLOW_KIND_UNREGISTERED" location
        "no registered execution kind has this exact revision" none],
      [("execution_kind_ref", takeText 120 execution_kind_ref)]⟩)

-- Input bindings

def literalPrefix : String := "literal:"

def literalText (value : String) : Option String :=
  if startsWith value literalPrefix then
    some (String.ofList (value.toList.drop literalPrefix.toList.length))
  else none

def resolvedText (value : String) : String := (literalText value).getD value

def inputError (code location detail name : String) : Failure :=
  .refused ⟨code, [located code s!"{location}/id={name}" detail none],
    [("input", takeText 120 name)]⟩

/-- A value of a declared binding that is text: an accepted contract, or a marked literal. -/
def checkedText (contract : InputContract) (location : String) (value : Yaml) : Chk Unit := do
  let s ← need value.text?
    (inputError "WORKFLOW_INPUT_INVALID" location "not a text value" contract.name)
  ensure (s ≠ "") (inputError "WORKFLOW_INPUT_INVALID" location "not a text value" contract.name)
  match contract.accepts.contains s, contract.type, literalText s with
  | true, _, _ => return ()
  | false, .text, some payload =>
    ensure (payload ≠ "")
      (inputError "WORKFLOW_INPUT_INVALID" location "a marked literal must carry data" contract.name)
  | false, _, _ =>
    .error (inputError "WORKFLOW_INPUT_CONTRACT_INCOMPATIBLE" location
      "a reference must name an accepted artifact contract" contract.name)

def checkedValue (contract : InputContract) (location : String) (value : Yaml) : Chk Unit :=
  let here := s!"{location}/id={contract.name}"
  let invalid := fun detail =>
    inputError "WORKFLOW_INPUT_INVALID" location detail contract.name
  match contract.type, value with
  | .structured, .map _ => .ok ()
  | .structured, _ => .error (invalid "not a structured value")
  | _, .list [] => .error (invalid "an empty list binds nothing")
  | _, .list items => do
    let _ ← each (checkedText contract here) items
  | _, .text s => do
    ensure (s ≠ "") (invalid s!"not a {contract.type.name} value")
    checkedText contract here value
  | _, _ => .error (invalid s!"not a {contract.type.name} value")

section
variable (inputs : List InputContract) (bound : Mapping) (location : String)

def checkUnknownInputs : Chk Unit := do
  let unknown := (bound.map Prod.fst).filter fun name =>
    !(inputs.map fun contract => Key.text contract.name).contains name
  -- names of different kinds have no order, and only a text can be shown in part
  let unknown ← need (unknown.mapM Key.text?) .typeError
  match sorted unknown with
  | [] => return ()
  | name :: _ =>
    .error (inputError "WORKFLOW_INPUT_UNKNOWN" location "not a declared input" name)

def checkMissingInputs : Chk Unit :=
  let missing := inputs.filter fun contract =>
    contract.required && (Mapping.find bound contract.name).isNone
  match sorted (missing.map InputContract.name) with
  | [] => .ok ()
  | name :: _ =>
    .error (inputError "WORKFLOW_INPUT_MISSING" location "a required input is not bound" name)

/-- The declared input contract of a kind, applied at declaration time: what it accepts
is bound, every required input is, and each value has the shape and names a contract
that is accepted. -/
def validateBindings : Chk Unit := do
  checkUnknownInputs inputs bound location
  checkMissingInputs inputs bound location
  let _ ← each (fun contract =>
    match Mapping.find bound contract.name with
    | none => .ok ()
    | some value => checkedValue contract location value) inputs

end

end Karajan.Compiler
