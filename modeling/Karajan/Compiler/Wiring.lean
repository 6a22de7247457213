import Karajan.Compiler.Passes

/-!
# Wiring

An accepted workflow is wired to itself: its dependencies end in steps and have no
cycle, and whatever a step reads, by an input at any nesting or by a fact of its
condition, is declared or is the output of a step it depends on. So every order
that respects the dependencies runs a step after all it reads.

A comparison is made between values of one type, but for a literal that is a truth
value: it has no type a fact could have, and is compared as text.
-/

namespace Karajan.Compiler

open List Yaml
open Listing (exists_left exists_right)
open Check
open Scheduling (sorted sortedSet notIn)
open Condition (comparisons factsOf comparisonsOf asDocument asDocuments)

-- What a step reads

def OutputReference (value producer : String) : Prop :=
  value = producer ++ ".output" ∧ literalText value = none ∧ isDeclaredInput value = false

def CompiledStep.inputTexts (s : CompiledStep) : List String := s.inputs.flatMap fun (_, value) => value.allTexts

inductive ReadsFrom (s : CompiledStep) (producer : String) : Prop
  | output (ht : t ∈ s.inputTexts) (h : OutputReference t producer)
  | fact (hf : f ∈ conditionFacts s.condition) (h : factProducer f = some producer)

def factType (steps : List CompiledStep) (fact : String) : Option FieldType :=
  if isDeclaredInput fact then some .text
  else if startsWith fact "result." then
    match splitText '.' fact with
    | [_, producer, field] => (stepNamed steps producer).bind fun s =>
      contractFieldType s.output_contract_ref field
    | _ => none
  else if startsWith fact "decision." then some .text
  else none

/-- The type of a literal; a truth value has none of the types a field has. -/
def Literal.type : Literal → Option FieldType
  | .text _ => some .text
  | .int _ => some .count
  | .bool _ => none

def DependsOn (steps : List CompiledStep) (producer consumer : String) : Prop :=
  ∃ s ∈ steps, s.step_id = consumer ∧ producer ∈ s.depends_on

/-- An order of the steps in which every step comes after its dependencies. -/
structure Topological (steps : List CompiledStep) (order : List String) : Prop where
  perm : order.Perm (steps.map CompiledStep.step_id)
  after : ∀ s ∈ steps, ∀ d ∈ s.depends_on, [d, s.step_id].Sublist order

structure WellWired (c : CompiledWorkflow) : Prop where
  targets : ∀ s ∈ c.steps, ∀ d ∈ s.depends_on, d ∈ c.steps.map CompiledStep.step_id
  acyclic : ∀ a, ¬ Relation.TransGen (DependsOn c.steps) a a
  reads : ∀ s ∈ c.steps, ∀ producer, ReadsFrom s producer → producer ∈ s.depends_on ∧ producer ≠ s.step_id
  /-- A text is a literal, a declared input or an output; there is nothing else. -/
  inputs : ∀ s ∈ c.steps, ∀ t ∈ s.inputTexts, literalText t ≠ none ∨
    isDeclaredInput t = true ∧ t ∈ c.declared_inputs ∨ ∃ producer, OutputReference t producer
  facts : ∀ s ∈ c.steps, ∀ f ∈ conditionFacts s.condition,
    isDeclaredInput f = true ∧ f ∈ c.declared_inputs ∨ ∃ producer, factProducer f = some producer
  typed : ∀ s ∈ c.steps, ∀ k ∈ conditionComparisons s.condition,
    ∃ type, factType c.steps k.2.1 = some type ∧ k.2.2.type = some type
  ordered : ∀ order, Topological c.steps order → ∀ s ∈ c.steps, ∀ producer,
    ReadsFrom s producer → [producer, s.step_id].Sublist order

-- Conditions

mutual
theorem Condition.facts_eq (c : Condition) : c.facts = c.comparisons.map fun k => k.2.1 := by
  match c with
  | .compare .. => rfl
  | .all items | .any items =>
    rw [Condition.facts, comparisons, Condition.factsOf_eq items]
  | .not item => rw [Condition.facts, comparisons, Condition.facts_eq item]
theorem Condition.factsOf_eq (items : List Condition) :
    factsOf items = (comparisonsOf items).map fun k => k.2.1 := by
  match items with
  | [] => rfl
  | item :: rest =>
    rw [factsOf, comparisonsOf, map_append, Condition.facts_eq item, Condition.factsOf_eq rest]
end

theorem conditionFacts_eq {condition : Option Condition} :
    conditionFacts condition = (conditionComparisons condition).map fun k => k.2.1 := by
  cases condition with
  | none => rfl
  | some c => exact c.facts_eq

def Literal.isBool : Literal → Bool
  | .bool _ => true
  | _ => false

theorem Literal.containsBool_value {literal : Literal} : literal.value.containsBool = literal.isBool := by
  cases literal <;> rfl

mutual
theorem Condition.containsBool_asDocument (c : Condition) :
    c.asDocument.containsBool = c.comparisons.any fun k => k.2.2.isBool := by
  match c with
  | .compare comparison fact literal =>
    simp [asDocument, comparisons, containsBool, containsBoolIn,
      containsBoolOf, Literal.containsBool_value]
  | .all items | .any items =>
    simp [asDocument, comparisons, containsBool, containsBoolIn,
      Condition.containsBool_asDocuments items]
  | .not item =>
    simp [asDocument, comparisons, containsBool, containsBoolIn,
      Condition.containsBool_asDocument item]
theorem Condition.containsBool_asDocuments (items : List Condition) :
    containsBoolOf (asDocuments items) = (comparisonsOf items).any fun k => k.2.2.isBool := by
  match items with
  | [] => rfl
  | item :: rest =>
    rw [asDocuments, comparisonsOf, containsBoolOf, any_append,
      Condition.containsBool_asDocument item, Condition.containsBool_asDocuments rest]
end

-- Inputs

def Bound (index : Index) (step : CompiledStep) (t : String) : Prop :=
  literalText t ≠ none ∨ isDeclaredInput t = true ∧ t ∈ index.declared_inputs ∨
    ∃ producer, OutputReference t producer ∧ producer ∈ step.depends_on ∧ producer ≠ step.step_id

theorem artifactReference_ok (h : artifactReference L index step value location = .ok contract) :
    ∃ producer, value = producer ++ ".output" ∧ producer ∈ step.depends_on ∧
      producer ≠ step.step_id := by
  simp only [artifactReference, bind_ok, ensure_ok, pure_ok] at h
  obtain ⟨_, -, _, -, _, hsuffix, producer, -, _, hself, _, hdepends, -⟩ := h
  exact ⟨_, (dropEnd_append hsuffix).symm, by simpa using hdepends, of_decide_eq_true hself⟩

theorem contractOf_ok (h : contractOf L index step location value = .ok contract) :
    ∃ t, value = .text t ∧ Bound index step t := by
  simp only [contractOf, bind_ok, need_ok, text?_eq_some] at h
  obtain ⟨t, rfl, h⟩ := h
  refine ⟨t, rfl, ?_⟩
  split at h
  case isTrue hliteral => exact .inl (Option.isSome_iff_ne_none.mp hliteral)
  case isFalse hliteral =>
    split at h
    case isTrue hinput =>
      simp only [bind_ok, ensure_ok, contains_iff_mem] at h
      obtain ⟨_, hdeclared, -⟩ := h
      exact .inr (.inl ⟨hinput, hdeclared⟩)
    case isFalse hinput =>
      obtain ⟨producer, heq, hdepends, hself⟩ := artifactReference_ok h
      refine .inr (.inr ⟨producer, ⟨heq, ?_, by simpa using hinput⟩, hdepends, hself⟩)
      simpa using hliteral

theorem mem_allTextsOf (ht : t ∈ allTextsOf items) : ∃ item ∈ items, t ∈ item.allTexts := by
  induction items with
  | nil => cases ht
  | cons item rest ih =>
    rcases mem_append.mp ht with ht | ht
    · exact ⟨item, by simp, ht⟩
    · obtain ⟨other, hm, ht⟩ := ih ht
      exact ⟨other, mem_cons_of_mem _ hm, ht⟩

theorem contractsOf_ok (h : each (contractOf L index step location) items = .ok contracts)
    (ht : t ∈ allTextsOf items) : Bound index step t := by
  obtain ⟨item, hitem, ht⟩ := mem_allTextsOf ht
  obtain ⟨contract, hcontract, -⟩ := each_ok h item hitem
  obtain ⟨t', rfl, hbound⟩ := contractOf_ok hcontract
  rw [mem_singleton.mp ht]
  exact hbound

theorem normalizedInput_key (h : normalizedInput L index step kind e = .ok e') : e'.1 = e.1 := by
  simp only [normalizedInput] at h
  split at h
  · cases h; rfl
  · split at h
    · simp only [bind_ok, pure_ok] at h
      obtain ⟨_, -, rfl⟩ := h
      rfl
    · split at h
      · simp only [bind_ok, pure_ok] at h
        obtain ⟨_, -, rfl⟩ := h
        rfl
      · cases h
        rfl
    · cases h; rfl

theorem normalizedInputs_keys (h : each (normalizedInput L index step kind) declared = .ok bound) :
    bound.map Prod.fst = declared.map Prod.fst := by
  induction declared generalizing bound with
  | nil => cases h; rfl
  | cons e declared ih =>
    obtain ⟨e', rest, he, hrest, rfl⟩ := each_cons_ok.mp h
    rw [map_cons, map_cons, normalizedInput_key he, ih hrest]

theorem checkedText_ok (htype : contract.type = .text) (h : checkedText contract location (.text s) = .ok u) :
    s ∈ contract.accepts ∨ literalText s ≠ none := by
  simp only [checkedText, text?, need, ok_bind, bind_ok, htype] at h
  obtain ⟨_, -, h⟩ := h
  split at h
  case h_1 haccepts => exact .inl (contains_iff_mem.mp haccepts)
  case h_2 hliteral => exact .inr (by simp [hliteral])
  · cases h

theorem sorted_eq_nil : sorted names = [] ↔ names = [] := by
  rw [← length_eq_zero_iff, Scheduling.length_sorted, length_eq_zero_iff]

theorem checkUnknownInputs_ok : checkUnknownInputs inputs bound location = .ok u ↔
    ∀ key ∈ bound.map Prod.fst, key ∈ inputs.map fun contract => Key.text contract.name := by
  have hnone : (∀ key ∈ bound.map Prod.fst, key ∈ inputs.map fun contract => Key.text contract.name) ↔
      (bound.map Prod.fst).filter (fun name =>
        !(inputs.map fun contract => Key.text contract.name).contains name) = [] := by
    simp only [filter_eq_nil_iff, Bool.not_eq_true', Bool.not_eq_false, contains_iff_mem]
  rw [hnone, checkUnknownInputs]
  generalize (bound.map Prod.fst).filter (fun name =>
    !(inputs.map fun contract => Key.text contract.name).contains name) = unknown
  simp only [bind_ok, need_ok]
  constructor
  · rintro ⟨names, hnames, h⟩
    split at h
    case h_1 hnil =>
      obtain rfl := sorted_eq_nil.mp hnil
      cases unknown with
      | nil => rfl
      | cons => simp [Option.bind_eq_some_iff] at hnames
    · cases h
  · rintro rfl
    exact ⟨[], rfl, rfl⟩

theorem validateBindings_ok (h : validateBindings inputs bound location = .ok u)
    (hc : contract ∈ inputs) (hfind : Mapping.find bound contract.name = some value) :
    checkedValue contract location value = .ok () := by
  simp only [validateBindings, bind_ok, pure_ok] at h
  obtain ⟨_, -, _, -, us, hall, -⟩ := h
  obtain ⟨_, hok, -⟩ := each_ok hall contract hc
  rw [hfind] at hok
  exact hok

theorem registry_inputs : ∀ kind ∈ registry, ∀ contract ∈ kind.inputs, contract.type = .text := by
  decide

theorem checkedValue_text (htype : contract.type = .text) (h : checkedValue contract location value = .ok u) :
    (∃ items, value = .list items) ∨
      ∃ s, value = .text s ∧ (s ∈ contract.accepts ∨ literalText s ≠ none) := by
  cases value with
  | list items => exact .inl ⟨items, rfl⟩
  | text s =>
    simp only [checkedValue, htype, bind_ok] at h
    obtain ⟨_, -, h⟩ := h
    exact .inr ⟨s, rfl, checkedText_ok htype h⟩
  | null | bool _ | int _ | other _ | map _ => simp [checkedValue, htype] at h

theorem normalizedInput_bound
    (hfind : (kind.inputs.find? fun contract => Key.text contract.name = name) = some contract)
    (htype : contract.type = .text) (h : normalizedInput L index step kind (name, value) = .ok (name', value'))
    (hchecked : checkedValue contract location value' = .ok u) (ht : t ∈ value.allTexts) :
    Bound index step t := by
  have hchecked := checkedValue_text htype hchecked
  simp only [normalizedInput, hfind] at h
  split at h
  · simp only [bind_ok, pure_ok] at h
    obtain ⟨contracts, hcontracts, -⟩ := h
    exact contractsOf_ok hcontracts ht
  case h_2 s =>
    rw [mem_singleton.mp ht]
    split at h
    · simp only [bind_ok, pure_ok] at h
      obtain ⟨contract_ref, href, -⟩ := h
      obtain ⟨t', heq, hbound⟩ := contractOf_ok href
      cases heq
      exact hbound
    case isFalse hnone =>
      -- with no contract to accept, only a marked literal passes
      simp only [pair_ok] at h
      obtain ⟨-, rfl⟩ := h
      obtain ⟨_, hlist⟩ | ⟨s', htext, haccepts | hliteral⟩ := hchecked
      · cases hlist
      · rw [not_not.mp hnone] at haccepts
        cases haccepts
      · cases htext
        exact .inl hliteral
  case h_3 hlist htext =>
    simp only [pair_ok] at h
    obtain ⟨-, rfl⟩ := h
    obtain ⟨items, rfl⟩ | ⟨s, rfl, -⟩ := hchecked
    · exact absurd rfl (hlist items)
    · exact absurd rfl (htext s)

theorem mem_sortedItems {items : List (String × Yaml)} : i ∈ sortedItems items ↔ i ∈ items :=
  mem_insertionSort _

theorem mem_textEntries {m : Mapping} :
    (name, value) ∈ (m.filterMap fun (k, v) => k.text?.map (·, v)) ↔ (.text name, value) ∈ m := by
  rw [mem_filterMap]
  constructor
  · rintro ⟨⟨k, v⟩, hm, hentry⟩
    cases k <;> simp_all [Key.text?]
  · exact fun hm => ⟨_, hm, rfl⟩

theorem exists_contract {inputs : List InputContract} (h : name ∈ inputs.map InputContract.name) :
    ∃ contract, (inputs.find? fun contract => Key.text contract.name = .text name) = some contract := by
  obtain ⟨contract, hcontract, rfl⟩ := mem_map.mp h
  exact Option.isSome_iff_exists.mp (find?_isSome.mpr ⟨contract, hcontract, by simp⟩)

theorem resolveInputs_ok (hkeys : (declared.map Prod.fst).Nodup) (hkind : kind ∈ registry)
    (h : resolveInputs L index step declared kind = .ok inputs) (hi : (name, value) ∈ inputs)
    (ht : t ∈ value.allTexts) : Bound index step t := by
  unfold resolveInputs at h
  split at h
  · simp only [bind_ok, pure_ok] at h
    obtain ⟨_, -, rfl⟩ := h
    cases hi
  · simp only [bind_ok, pure_ok] at h
    obtain ⟨bound, hbound, _, hvalid, rfl⟩ := h
    obtain ⟨hi, haccepted⟩ := mem_filter.mp hi
    obtain ⟨contract, hfind⟩ := exists_contract (contains_iff_mem.mp haccepted)
    have hcontract : contract ∈ kind.inputs := mem_of_find?_eq_some hfind
    have hname : contract.name = name := by simpa using find?_some hfind
    -- the value that the contract was checked on is the one under this name
    obtain ⟨⟨k, v⟩, hnormalized, hmem⟩ := each_ok hbound _ (mem_textEntries.mp (mem_sortedItems.mp hi))
    obtain rfl : k = .text name := normalizedInput_key hnormalized
    have hfound : Mapping.find bound contract.name = some v := by
      rw [Mapping.find, hname]
      exact (Dict.lookup_eq_some (normalizedInputs_keys hbound ▸ hkeys)).mpr hmem
    exact normalizedInput_bound hfind (registry_inputs kind hkind contract hcontract) hnormalized
      (validateBindings_ok hvalid hcontract hfound) ht

-- Facts

def FactBound (index : Index) (step : CompiledStep) (f : String) : Prop :=
  isDeclaredInput f = true ∧ f ∈ index.declared_inputs ∨
    ∃ producer, factProducer f = some producer ∧ producer ∈ step.depends_on

theorem checkFact_ok (h : checkFact index step f location = .ok type) :
    FactBound index step f ∧ factType index.steps f = some type := by
  unfold checkFact at h
  split at h
  case isTrue hinput =>
    simp only [bind_ok, ensure_ok, pure_ok, contains_iff_mem] at h
    obtain ⟨_, hdeclared, rfl⟩ := h
    exact ⟨.inl ⟨hinput, hdeclared⟩, by simp [factType, hinput]⟩
  case isFalse hinput =>
    split at h
    case isTrue hresult =>
      split at h
      case h_1 producer field hparts =>
        simp only [bind_ok, need_ok, ensure_ok, contains_iff_mem] at h
        obtain ⟨s, hs, _, hdepends, htype⟩ := h
        exact ⟨.inr ⟨producer, by simp [factProducer, hresult, hparts], hdepends⟩,
          by simp [factType, hinput, hresult, hparts, hs, htype]⟩
      · cases h
    case isFalse hresult =>
      split at h
      case isTrue hdecision =>
        split at h
        case h_1 producer hparts =>
          simp only [bind_ok, need_ok, ensure_ok, pure_ok, contains_iff_mem] at h
          obtain ⟨s, hs, _, hdepends, rfl⟩ := h
          exact ⟨.inr ⟨producer, by simp [factProducer, hresult, hdecision, hparts], hdepends⟩,
            by simp [factType, hinput, hresult, hdecision]⟩
        · cases h
      · cases h

theorem checkOperandType_ok (h : checkOperandType c type literal location step_id = .ok u) :
    type = literal.comparedAs := by
  unfold checkOperandType at h
  split at h
  · simp only [bind_ok, ensure_ok, decide_eq_true_eq] at h
    obtain ⟨_, rfl, hliteral⟩ := h
    exact hliteral.symm
  · simpa [ensure_ok] using h

theorem resolveComparison_ok (h : resolveComparison index step k = .ok u) :
    FactBound index step k.2.1 ∧ factType index.steps k.2.1 = some k.2.2.comparedAs := by
  simp only [resolveComparison, bind_ok] at h
  obtain ⟨type, hfact, hoperand⟩ := h
  obtain ⟨hbound, htype⟩ := checkFact_ok hfact
  exact ⟨hbound, htype.trans (congrArg some (checkOperandType_ok hoperand))⟩

theorem factProducer_input (h : factProducer f = some producer) : isDeclaredInput f = false := by
  have hstart : startsWith f "result." = true ∨ startsWith f "decision." = true := by
    unfold factProducer at h
    split at h
    case isTrue hresult => exact .inl hresult
    · split at h
      case isTrue hdecision => exact .inr hdecision
      · cases h
  rw [isDeclaredInput, ← Bool.not_eq_true, any_eq_true]
  rintro ⟨start, hmem, hinput⟩
  simp only [declaredInputPrefixes, mem_cons, not_mem_nil, or_false] at hmem
  obtain hstart | hstart := hstart <;> obtain rfl | rfl := hmem <;>
    obtain hcompare | hcompare := startsWith_comparable hstart hinput <;> revert hcompare <;> decide

theorem Literal.type_eq {literal : Literal} :
    literal.type = some literal.comparedAs ↔ literal.isBool = false := by
  cases literal <;> simp [Literal.type, Literal.comparedAs, Literal.isBool]

-- Accepted workflows

def declaredSteps (document : Yaml) : List Mapping :=
  ((document.map?.map fun workflow => workflow.get "steps").bind list?).getD []
    |>.filterMap map?

theorem stepNamed_of_mem (hnodup : (steps.map CompiledStep.step_id).Nodup) (hs : s ∈ steps) :
    stepNamed steps s.step_id = some s := by
  induction steps with
  | nil => cases hs
  | cons s' steps ih =>
    rw [map_cons, nodup_cons] at hnodup
    rw [stepNamed, find?_cons]
    rcases mem_cons.mp hs with rfl | hs
    · simp
    · have hne : s'.step_id ≠ s.step_id := fun heq =>
        hnodup.1 (mem_map.mpr ⟨s, hs, heq.symm⟩)
      simp only [hne, decide_false]
      exact ih hnodup.2 hs

open DeclaredStep (step)

theorem contract_of_resolved (producer : String)
    (h : Forall₂ (Resolves L index bindings binding_index) ds steps) :
    (stepNamed steps producer).map CompiledStep.output_contract_ref =
      (stepNamed (ds.map step) producer).map CompiledStep.output_contract_ref := by
  induction h with
  | nil => rfl
  | cons hr _ ih =>
    simp only [stepNamed, map_cons, find?_cons, hr.step_id] at ih ⊢
    split
    · rw [Option.map_some, Option.map_some, hr.output_contract_ref]
    · exact ih

theorem factType_resolved (f : String) (h : Forall₂ (Resolves L index bindings binding_index) ds steps) :
    factType steps f = factType (ds.map step) f := by
  have hbind : ∀ producer field, ((stepNamed steps producer).bind fun s =>
      contractFieldType s.output_contract_ref field) =
      (stepNamed (ds.map step) producer).bind fun s =>
        contractFieldType s.output_contract_ref field := by
    intro producer field
    have hcontract := congrArg (Option.bind · fun ref => contractFieldType ref field)
      (contract_of_resolved producer h)
    simpa [Option.bind_map, Function.comp_def] using hcontract
  simp only [factType, hbind]

variable {p : Passed}

section
variable (h : p.Holds L ctx c)
include h

theorem Passed.Holds.declaredSteps_eq : declaredSteps (.map p.workflow) = p.raw_steps := by
  simp [declaredSteps, map?, list?, (rawSteps_ok h.raw_steps).1, filterMap_map, Function.comp_def]

theorem Passed.Holds.depends (hdepends : DependsOn c.steps producer consumer) :
    Dfs.Below (edges (p.declared.map step)) producer consumer := by
  obtain ⟨s, hs, rfl, hdepends⟩ := hdepends
  obtain ⟨m, -, d, hd, -, hresolves⟩ := exists_left h.steps hs
  have hnodup : ((p.declared.map step).map CompiledStep.step_id).Nodup := by
    rw [map_map]
    exact (compileSteps_ok h.declared).2.2
  rw [Dfs.Below, edges, hresolves.step_id, stepNamed_of_mem hnodup (mem_map_of_mem hd),
    Option.map_some, Option.getD_some, ← hresolves.depends_on]
  exact hdepends

theorem Passed.Holds.targets (hs : s ∈ c.steps) (hd : d ∈ s.depends_on) :
    d ∈ c.steps.map CompiledStep.step_id := by
  obtain ⟨m, -, declared, hdeclared, -, hresolves⟩ := exists_left h.steps hs
  obtain ⟨hknown, -⟩ := checkDependencies_ok h.dependencies
  obtain ⟨s', hs', rfl⟩ := mem_map.mp
    (hknown _ (mem_map_of_mem hdeclared) d (hresolves.depends_on ▸ hd))
  obtain ⟨d', hd', rfl⟩ := mem_map.mp hs'
  obtain ⟨s', hs', hr⟩ := exists_right (checkReferences_ok.mp h.references) hd'
  exact mem_map.mpr ⟨s', hs', hr.step_id⟩

theorem Passed.Holds.bound (hdistinct : (map p.workflow).distinct = true)
    (hs : s ∈ c.steps) : (∀ t ∈ s.inputTexts, Bound ⟨c.declared_inputs, c.steps⟩ s t) ∧
    (∀ k ∈ conditionComparisons s.condition, FactBound ⟨c.declared_inputs, c.steps⟩ s k.2.1 ∧
      factType c.steps k.2.1 = some k.2.2.comparedAs) ∧ s.step_id ∉ s.depends_on := by
  obtain ⟨m, hm, d, hd, hreads, hresolves⟩ := exists_left h.steps hs
  have hdeclared : c.declared_inputs = sorted p.names := by rw [h.rest]
  refine ⟨fun t ht => ?_, fun k hk => ?_,
    by rw [hresolves.step_id, hresolves.depends_on]; exact hreads.not_self⟩
  · obtain ⟨⟨name, value⟩, hi, ht⟩ := mem_flatMap.mp ht
    obtain ⟨kind, hkind, hinputs⟩ := hresolves.inputs
    have hkeys : (d.raw_inputs.map Prod.fst).Nodup := by
      have hsteps : (list (p.raw_steps.map .map)).distinct = true :=
        (rawSteps_ok h.raw_steps).1 ▸ distinct_getD hdistinct rfl
      have hraw : (map m).distinct = true := distinct_item hsteps (mem_map_of_mem hm)
      have hin : (map d.raw_inputs).distinct = true := hreads.inputs ▸ distinct_getD hraw rfl
      rw [distinct, Bool.and_eq_true] at hin
      exact of_decide_eq_true hin.1
    have hbound := resolveInputs_ok hkeys (mem_of_find?_eq_some hkind) hinputs hi ht
    simp only [Bound, hdeclared, hresolves.step_id, hresolves.depends_on] at hbound ⊢
    exact hbound
  · obtain ⟨hfact, htype⟩ := resolveComparison_ok (hresolves.facts k (hresolves.condition ▸ hk))
    rw [factType_resolved _ (checkReferences_ok.mp h.references)]
    simp only [FactBound, hdeclared, hresolves.depends_on] at hfact ⊢
    exact ⟨hfact, htype⟩

end

/-- An accepted workflow is well wired exactly when no condition compares with a truth value. -/
theorem well_wired_iff {document : Document} (h : compileWorkflow L ctx document.value = .ok c) :
    WellWired c ↔ ∀ m ∈ declaredSteps document.value, (m.get "condition").containsBool = false := by
  obtain ⟨p, hdocument, hp⟩ := compileWorkflow_ok.mp h
  have hdistinct : (map p.workflow).distinct = true := hdocument ▸ document.distinct
  -- a truth value in the document is one in the compiled condition
  have hbool : (∀ m ∈ declaredSteps document.value, (m.get "condition").containsBool = false) ↔
      ∀ s ∈ c.steps, ∀ k ∈ conditionComparisons s.condition, k.2.2.isBool = false := by
    have hof : ∀ {m s}, StepOf L ctx p m s → ((m.get "condition").containsBool = false ↔
        ∀ k ∈ conditionComparisons s.condition, k.2.2.isBool = false) := by
      rintro m s ⟨d, -, hreads, hresolves⟩
      rw [hreads.condition, hresolves.condition]
      cases d.step.condition with
      | none => simp [conditionComparisons, containsBool]
      | some condition =>
        simp [conditionComparisons, Condition.containsBool_asDocument]
    rw [hdocument, hp.declaredSteps_eq]
    constructor
    · intro hall s hs
      obtain ⟨m, hm, hstep⟩ := exists_left hp.steps hs
      exact (hof hstep).mp (hall m hm)
    · intro hall m hm
      obtain ⟨s, hs, hstep⟩ := exists_right hp.steps hm
      exact (hof hstep).mpr (hall s hs)
  rw [hbool]
  constructor
  · intro hwired s hs k hk
    obtain ⟨type, hfact, hliteral⟩ := hwired.typed s hs k hk
    obtain ⟨-, hcompared⟩ := (hp.bound hdistinct hs).2.1 k hk
    rw [hfact] at hcompared
    exact Literal.type_eq.mp (hliteral.trans hcompared)
  · intro hnone
    have hreads : ∀ s ∈ c.steps, ∀ producer, ReadsFrom s producer →
        producer ∈ s.depends_on ∧ producer ≠ s.step_id := by
      intro s hs producer hreads
      obtain ⟨hinputs, hfacts, hself⟩ := hp.bound hdistinct hs
      have hdepends : producer ∈ s.depends_on := by
        cases hreads with
        | output ht href =>
          obtain hliteral | ⟨hinput, -⟩ | ⟨producer', href', hdepends, -⟩ := hinputs _ ht
          · exact absurd href.2.1 hliteral
          · rw [href.2.2] at hinput
            cases hinput
          · have heq := href.1.symm.trans href'.1
            rw [String.append_left_inj] at heq
            exact heq ▸ hdepends
        | fact hf hproducer =>
          rw [conditionFacts_eq] at hf
          obtain ⟨k, hk, rfl⟩ := mem_map.mp hf
          obtain ⟨hinput, -⟩ | ⟨producer', hproducer', hdepends⟩ := (hfacts k hk).1
          · rw [factProducer_input hproducer] at hinput
            cases hinput
          · cases hproducer.symm.trans hproducer'
            exact hdepends
      exact ⟨hdepends, fun heq => hself (heq ▸ hdepends)⟩
    exact
      { targets := fun s hs d hd => hp.targets hs hd
        acyclic := fun a hcycle => findCycle_none (checkDependencies_ok hp.dependencies).2 (checkDependencies_ok hp.dependencies).1 a
          (hcycle.lift id fun _ _ => hp.depends)
        reads := hreads
        inputs := fun s hs t ht => by
          obtain hliteral | hinput | ⟨producer, href, -⟩ := (hp.bound hdistinct hs).1 t ht
          · exact .inl hliteral
          · exact .inr (.inl hinput)
          · exact .inr (.inr ⟨producer, href⟩)
        facts := fun s hs f hf => by
          rw [conditionFacts_eq] at hf
          obtain ⟨k, hk, rfl⟩ := mem_map.mp hf
          obtain hinput | ⟨producer, hproducer, -⟩ := ((hp.bound hdistinct hs).2.1 k hk).1
          · exact .inl hinput
          · exact .inr ⟨producer, hproducer⟩
        typed := fun s hs k hk => ⟨_, ((hp.bound hdistinct hs).2.1 k hk).2,
          Literal.type_eq.mpr (hnone s hs k hk)⟩
        ordered := fun order horder s hs producer hread =>
          horder.after s hs producer (hreads s hs producer hread).1 }

/-- A report that is gathered by one step and gated by another one, on a literal. -/
def gatedReport (literal : Yaml) : Yaml :=
  sampleWorkflow "report"
    [sampleStep "a" "artifact_aggregate@1" "aggregated-report@1"
      [("inputs", ofMap [("sources", .text "input.a")])],
    sampleStep "b" "artifact_aggregate@1" "aggregated-report@1"
      [("depends_on", .ofTexts ["a"]), ("inputs", ofMap [("sources", .ofTexts ["a.output"])]),
        ("condition", ofMap [("equals", .list [.text "result.a.content", literal])])]] "a"

theorem well_wired_iff_gated : ∃ c,
    compileWorkflow sampleLibrary sampleContext (gatedReport (.text "x")) = .ok c ∧
      (WellWired c ↔ ∀ m ∈ declaredSteps (gatedReport (.text "x")),
        (m.get "condition").containsBool = false) := by
  obtain ⟨c, hc⟩ : ∃ c, compileWorkflow sampleLibrary sampleContext (gatedReport (.text "x")) = .ok c :=
    ok_of_isOk (by decide +kernel)
  let document : Document := ⟨gatedReport (.text "x"), by decide +kernel⟩
  have hdocument : compileWorkflow sampleLibrary sampleContext document.value = .ok c := hc
  exact ⟨c, hc, well_wired_iff hdocument⟩

/-- The content of a report, which is text, is compared with a truth value. -/
theorem compared_with_truth : ∃ c,
    compileWorkflow sampleLibrary sampleContext (gatedReport (.bool true)) = .ok c ∧
      ¬ WellWired c := by
  have hcompiled : (compileWorkflow sampleLibrary sampleContext
      (gatedReport (.bool true))).toOption.map
        (fun c => c.steps.any fun s => (conditionComparisons s.condition).any fun k => k.2.2.isBool) =
      some true := by decide +kernel
  obtain ⟨c, hc, hbool⟩ := ok_of_map hcompiled
  obtain ⟨s, hs, hany⟩ := any_eq_true.mp hbool
  obtain ⟨k, hk, htruth⟩ := any_eq_true.mp hany
  refine ⟨c, hc, fun hwired => ?_⟩
  obtain ⟨type, -, htype⟩ := hwired.typed s hs k hk
  cases hliteral : k.2.2 <;> simp [hliteral, Literal.isBool, Literal.type] at htruth htype

end Karajan.Compiler
