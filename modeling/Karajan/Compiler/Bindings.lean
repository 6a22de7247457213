import Karajan.Compiler.Wiring

/-!
# The adapter's side of a binding

The compiler checks a binding as it is written, the adapter what it decodes.
A mapping of marked literals that the first accepts is accepted by the second,
and each text it receives is what stands behind one marker.
-/

namespace Karajan.Compiler

open List Dict Check

def isReference (value : String) : Bool := !startsWith value literalPrefix

def unusable (code : String) (fields : List (String × String)) : Failure := .refused ⟨code, [], fields⟩

def runtimeText (value : Yaml) : Chk Yaml := do
  let s ← need value.text? (unusable "WORKFLOW_INPUT_INVALID" [])
  ensure (s ≠ "") (unusable "WORKFLOW_INPUT_INVALID" [])
  ensure (!isReference s) (unusable "WORKFLOW_INPUT_REFERENCE_UNRESOLVED"
    [("input", "a symbolic reference is not runtime data")])
  let payload := resolvedText s
  ensure (payload ≠ "") (unusable "WORKFLOW_INPUT_INVALID" [])
  return .text payload

def runtimeValue : Yaml → Chk Yaml
  | .list items => Yaml.list <$> each runtimeText items
  | .text s => runtimeText (.text s)
  | value => .ok value

/-- The data an adapter receives; the only place where a marker is removed. -/
def resolveForAdapter (inputs : Mapping) : Chk Mapping :=
  each (fun (name, value) => (name, ·) <$> runtimeValue value) inputs

/-- At run time any text is data of the declared type. -/
def receivedText (contract : InputContract) (location : String) (value : Yaml) : Chk Yaml := do
  let invalid := inputError "WORKFLOW_INPUT_INVALID" location "not a text value" contract.name
  let s ← need value.text? invalid
  ensure (s ≠ "") invalid
  return value

def receivedValue (contract : InputContract) (location : String) (value : Yaml) : Chk Yaml :=
  let here := s!"{location}/id={contract.name}"
  let invalid := fun detail => inputError "WORKFLOW_INPUT_INVALID" location detail contract.name
  match contract.type, value with
  | .structured, .map entries => .ok (.map entries)
  | .structured, _ => .error (invalid "not a structured value")
  | _, .list [] => .error (invalid "an empty list binds nothing")
  | _, .list items => Yaml.list <$> each (receivedText contract here) items
  | _, .text s => do
    ensure (s ≠ "") (invalid s!"not a {contract.type.name} value")
    receivedText contract here value
  | _, _ => .error (invalid s!"not a {contract.type.name} value")

open Mapping (find)

/-- The same contract without what it says of references. -/
def receiveBindings (inputs : List InputContract) (bound : Mapping) (location : String) : Chk Mapping := do
  checkUnknownInputs inputs bound location
  checkMissingInputs inputs bound location
  let checked ← each (fun contract =>
    match find bound contract.name with
    | none => .ok none
    | some value =>
      (fun value => some (Key.text contract.name, value)) <$> receivedValue contract location value) inputs
  return checked.filterMap fun entry => entry

/-- What the aggregate makes its report of. -/
def aggregateInputs (inputs : Mapping) : Chk Mapping := do
  let resolved ← resolveForAdapter inputs
  receiveBindings aggregated.inputs resolved "workflow.yaml#/steps"

-- What was written

/-- A marked literal, or a list of them, and the value behind the marks. -/
inductive Written : Yaml → Yaml → Prop
  | text (payload : String) : Written (.text (literalPrefix ++ payload)) (.text payload)
  | list (payloads : List String) :
    Written (.list (payloads.map fun payload => .text (literalPrefix ++ payload))) (.ofTexts payloads)

@[simp] theorem literalText_marked : literalText (literalPrefix ++ payload) = some payload := by
  simp [literalText, startsWith]

theorem runtimeText_marked (h : payload ≠ "") :
    runtimeText (.text (literalPrefix ++ payload)) = .ok (.text payload) := by
  have hmarked : startsWith (literalPrefix ++ payload) literalPrefix = true := by simp [startsWith]
  have hsome : literalPrefix ++ payload ≠ "" := by simp [literalPrefix]
  simp [runtimeText, Yaml.text?, need, ensure, isReference, resolvedText, hmarked, hsome, h, pure, Except.pure]

theorem aggregated_accepts : ∀ contract ∈ aggregated.inputs, contract.type = .text ∧
    ∀ accepted ∈ contract.accepts, startsWith accepted literalPrefix = false := by
  decide

theorem checkedText_marked (hc : contract ∈ aggregated.inputs)
    (h : checkedText contract location (.text (literalPrefix ++ payload)) = .ok u) : payload ≠ "" := by
  obtain ⟨htype, haccepts⟩ := aggregated_accepts contract hc
  have hnot : literalPrefix ++ payload ∉ contract.accepts := fun hmem => by
    have hmarked : startsWith (literalPrefix ++ payload) literalPrefix = true := by
      rw [startsWith_iff, String.toList_append]
      exact prefix_append _ _
    rw [haccepts _ hmem] at hmarked
    cases hmarked
  have hsome : literalPrefix ++ payload ≠ "" := by simp [literalPrefix]
  simpa [checkedText, Yaml.text?, need, ensure, hnot, hsome, htype] using h

theorem Written.checked {written : Yaml} (hw : Written value written) (hc : contract ∈ aggregated.inputs)
    (h : checkedValue contract location value = .ok u) (place : String) :
    runtimeValue value = .ok written ∧ receivedValue contract place written = .ok written := by
  have htype := (aggregated_accepts contract hc).1
  cases hw with
  | text payload =>
    simp only [checkedValue, htype, bind_ok] at h
    obtain ⟨_, -, h⟩ := h
    have hsome := checkedText_marked hc h
    refine ⟨runtimeText_marked hsome, ?_⟩
    simp [receivedValue, htype, receivedText, Yaml.text?, need, ensure, hsome, pure, Except.pure]
  | list payloads =>
    have hsome : payloads ≠ [] ∧ ∀ payload ∈ payloads, payload ≠ "" := by
      cases payloads with
      | nil => simp [checkedValue, htype] at h
      | cons first rest =>
        simp only [checkedValue, htype, bind_ok, map_cons] at h
        obtain ⟨us, hall, -⟩ := h
        refine ⟨by simp, fun payload hm => ?_⟩
        obtain ⟨_, hok, -⟩ := each_ok hall (.text (literalPrefix ++ payload)) (by simpa using hm)
        exact checkedText_marked hc hok
    constructor
    · have heach : each runtimeText (payloads.map fun payload => .text (literalPrefix ++ payload)) =
          .ok (payloads.map .text) := by
        rw [each_forall₂, forall₂_map_left_iff, forall₂_map_right_iff, forall₂_same]
        exact fun payload hm => runtimeText_marked (hsome.2 payload hm)
      simp [runtimeValue, heach, Yaml.ofTexts, Functor.map, Except.map]
    · have heach : each (receivedText contract s!"{place}/id={contract.name}") (payloads.map .text) =
          .ok (payloads.map .text) := by
        rw [each_forall₂, forall₂_map_left_iff, forall₂_map_right_iff, forall₂_same]
        intro payload hm
        simp [receivedText, Yaml.text?, need, ensure, hsome.2 payload hm, pure, Except.pure]
      cases payloads with
      | nil => exact absurd rfl hsome.1
      | cons first rest =>
        rw [map_cons] at heach
        simp [receivedValue, htype, heach, Yaml.ofTexts, Functor.map, Except.map]

theorem resolve_written (h : ∀ e ∈ bound, ∃ written, Written e.2 written ∧ runtimeValue e.2 = .ok written) :
    ∃ resolved, resolveForAdapter bound = .ok resolved ∧ resolved.map Prod.fst = bound.map Prod.fst ∧
      ∀ name value, find bound name = some value →
        ∃ written, Written value written ∧ find resolved name = some written := by
  induction bound with
  | nil => exact ⟨[], rfl, rfl, fun _ _ hfind => by cases hfind⟩
  | cons e bound ih =>
    obtain ⟨key, value⟩ := e
    obtain ⟨⟨written, hwritten, hvalue⟩, hrest⟩ := List.forall_mem_cons.mp h
    obtain ⟨resolved, hresolved, hkeys, hfind⟩ := ih hrest
    refine ⟨(key, written) :: resolved, ?_, by simp [hkeys], fun name found hname => ?_⟩
    · exact each_cons_ok.mpr ⟨_, resolved, by simp only [hvalue]; rfl, hresolved, rfl⟩
    · simp only [find, Dict.lookup] at hname hfind ⊢
      split at hname
      case isTrue hkey => exact ⟨written, Option.some.inj hname ▸ hwritten, if_pos hkey⟩
      case isFalse hkey => rw [if_neg hkey]; exact hfind name found hname

theorem checkMissingInputs_ok : checkMissingInputs inputs bound location = .ok u ↔
    ∀ contract ∈ inputs, contract.required = true → find bound contract.name ≠ none := by
  have hnone : (∀ contract ∈ inputs, contract.required = true → find bound contract.name ≠ none) ↔
      (inputs.filter fun contract => contract.required && (find bound contract.name).isNone).map
        InputContract.name = [] := by
    simp [filter_eq_nil_iff, Option.isNone_iff_eq_none]
  rw [hnone, checkMissingInputs, ← sorted_eq_nil]
  split
  case h_1 hnil => simp [hnil]
  case h_2 hcons => simp [hcons]

theorem find_received {inputs : List InputContract} {resolved : Mapping} (hc : contract ∈ inputs)
    (hfind : find resolved contract.name = some value) : find (inputs.filterMap fun contract =>
      (find resolved contract.name).map (Key.text contract.name, ·)) contract.name = some value := by
  induction inputs with
  | nil => cases hc
  | cons first rest ih =>
    rw [List.filterMap_cons]
    by_cases hname : first.name = contract.name
    · rw [hname, hfind]
      simp [find, Dict.lookup]
    · have hrest := ih ((List.mem_cons.mp hc).resolve_left fun heq => hname (heq ▸ rfl))
      cases find resolved first.name with
      | none => exact hrest
      | some _ => simpa [find, Dict.lookup, hname] using hrest

/-- What the compiler accepts of literals, the aggregate receives as it was written. -/
theorem literals_received (bound : Dict Key Yaml) (location : String)
    (hliterals : ∀ e ∈ bound.entries, ∃ written, Written e.2 written)
    (haccepted : validateBindings aggregated.inputs bound.entries location = .ok ()) :
    ∃ received, aggregateInputs bound.entries = .ok received ∧
      ∀ name value, find bound.entries name = some value →
        ∃ written, Written value written ∧ find received name = some written := by
  have hchecks := haccepted
  simp only [validateBindings, bind_ok] at hchecks
  obtain ⟨_, hunknown, _, hmissing, -⟩ := hchecks
  rw [checkUnknownInputs_ok] at hunknown
  rw [checkMissingInputs_ok] at hmissing
  -- each entry is one of a declared input, so it was checked
  have hentry : ∀ e ∈ bound.entries, ∃ contract ∈ aggregated.inputs, e.1 = .text contract.name ∧
      checkedValue contract location e.2 = .ok () := by
    intro e he
    obtain ⟨contract, hc, hkey⟩ := List.mem_map.mp (hunknown e.1 (mem_map_of_mem he))
    have hfind : find bound.entries contract.name = some e.2 :=
      (lookup_eq_some bound.nodup).mpr (by rw [hkey]; exact he)
    exact ⟨contract, hc, hkey.symm, validateBindings_ok haccepted hc hfind⟩
  obtain ⟨resolved, hresolved, hkeys, hwritten⟩ := resolve_written fun e he => by
    obtain ⟨contract, hc, -, hchecked⟩ := hentry e he
    obtain ⟨written, hw⟩ := hliterals e he
    exact ⟨written, hw, (hw.checked hc hchecked location).1⟩
  have hbound : ∀ contract ∈ aggregated.inputs, find bound.entries contract.name = none →
      find resolved contract.name = none := by
    intro contract _ hnone
    rw [find, lookup_eq_none] at hnone ⊢
    rwa [hkeys]
  refine ⟨aggregated.inputs.filterMap fun contract =>
    (find resolved contract.name).map (Key.text contract.name, ·), ?_, fun name value hfind => ?_⟩
  · simp only [aggregateInputs, bind_ok, pure_ok, receiveBindings]
    refine ⟨resolved, hresolved, (), ?_, (), ?_, _, each_map (g := fun contract : InputContract =>
      (find resolved contract.name).map (Key.text contract.name, ·)) fun contract hc => ?_,
      filterMap_map ..⟩
    · rw [checkUnknownInputs_ok, hkeys]
      exact hunknown
    · rw [checkMissingInputs_ok]
      intro contract hc hrequired
      obtain ⟨value, hvalue⟩ := Option.ne_none_iff_exists'.mp (hmissing contract hc hrequired)
      obtain ⟨written, -, hwas⟩ := hwritten contract.name value hvalue
      simp [hwas]
    · cases hfind : find bound.entries contract.name with
      | none => rw [hbound contract hc hfind]; rfl
      | some value =>
        obtain ⟨written, hw, hwas⟩ := hwritten contract.name value hfind
        simp only [hwas, (hw.checked hc (validateBindings_ok haccepted hc hfind) _).2]
        rfl
  · obtain ⟨written, hw, hwas⟩ := hwritten name value hfind
    have hkey : Key.text name ∈ bound.entries.map Prod.fst := by
      by_contra hnot
      rw [find, Dict.lookup_eq_none.mpr hnot] at hfind
      cases hfind
    obtain ⟨contract, hc, hname⟩ := List.mem_map.mp (hunknown _ hkey)
    obtain rfl := Key.text.inj hname
    exact ⟨written, hw, find_received hc hwas⟩

theorem literals_received_marked : ∃ received, aggregateInputs
    [(.text "title", .text "literal:literal:x"), (.text "sources", .list [.text "literal:y"])] = .ok received ∧
    ∃ written, Written (.text "literal:literal:x") written ∧ find received "title" = some written := by
  obtain ⟨received, hreceived, hwritten⟩ := literals_received
    ⟨[(.text "title", .text "literal:literal:x"), (.text "sources", .list [.text "literal:y"])], by decide⟩ ""
    (by
      intro e he
      rcases List.mem_cons.mp he with rfl | he
      · exact ⟨_, .text "literal:x"⟩
      · obtain rfl := List.mem_singleton.mp he
        exact ⟨_, .list ["y"]⟩) rfl
  exact ⟨received, hreceived, hwritten "title" _ rfl⟩

end Karajan.Compiler
