import Karajan.Scheduling.GrantLaws
import Karajan.Scheduling.Store

/-!
# Authority under delegation

A child grant is meant to permit no task its parent does not. Every dimension
of a specification is narrowed by one rule and read by another; the two agree
but for three: a grant that names no execution kinds permits them all, and a
wildcard pattern is covered by the pattern with one more wildcard, which does
not cover the paths below it. `confined_iff` says exactly when a narrowed child
is confined to its parent.
-/

namespace Karajan.Scheduling

open List Check
open Json (ofTexts str)
open Sample (platform delegating grant)
variable {parent : Grant}

/-- Every task specification accepted under the child is accepted under the parent. -/
def Confined (P : Platform) (parent child : Authority) : Prop :=
  ∀ value pointer definitions known_tasks producers spec,
    validateTaskSpec P value child pointer definitions known_tasks producers = .ok spec →
    ∃ spec', validateTaskSpec P value parent pointer definitions known_tasks producers = .ok spec'

def kindsNarrowed (parent child : Authority) : Prop :=
  parent.execution_kind_refs = [] ∨ child.execution_kind_refs ≠ []

def nameable (authority : Authority) : Prop :=
  authority.execution_kind_refs = [] ∨ ∃ kind ∈ authority.execution_kind_refs, IdentifierForm kind

-- What narrowing keeps

theorem taskScopes_ok : taskScopes P fields authority pointer = .ok (write_zone, path_scope) ↔
      (field fields "write_zone" = .str write_zone ∧ PathForm P write_zone) ∧
      (declaredScope (field fields "path_scope") authority = ofTexts path_scope ∧
        ScopeForm P path_scope) ∧
      containsScope authority.scope path_scope = true ∧
      containsScope authority.write_scope [write_zone] = true := by
  simp only [taskScopes, bind_ok, ensure_ok, pure_ok, normalizedPath_ok, normalizedScopes_ok, Prod.mk.injEq]
  constructor
  · rintro ⟨_, hzone, _, hscope, -, hread, -, hwrite, rfl, rfl⟩
    exact ⟨hzone, hscope, hread, hwrite⟩
  · rintro ⟨hzone, hscope, hread, hwrite⟩
    exact ⟨write_zone, hzone, path_scope, hscope, (), hread, (), hwrite, rfl, rfl⟩

section
variable (hn : Narrowed parent child)
include hn

theorem taskRole_mono (h : taskRole fields child pointer = .ok role) :
    taskRole fields parent.toAuthority pointer = .ok role := by
  simp only [taskRole, bind_ok, need_ok, pure_ok] at h ⊢
  obtain ⟨alias_id, halias, reference, href, rfl⟩ := h
  exact ⟨alias_id, halias, reference, hn.role_refs alias_id reference href, rfl⟩

theorem taskKind_mono (hk : kindsNarrowed parent.toAuthority child)
    (h : taskKind fields child definitions pointer = .ok kind) :
    taskKind fields parent.toAuthority definitions pointer = .ok kind := by
  simp only [taskKind, bind_ok, ensure_ok, pure_ok, Bool.or_eq_true, beq_iff_eq,
    length_eq_zero_iff, contains_eq_mem, decide_eq_true_eq] at h ⊢
  obtain ⟨kind_ref, href, frozen, hfrozen, -, hpermitted, rfl⟩ := h
  refine ⟨kind_ref, href, frozen, hfrozen, (), ?_, rfl⟩
  rcases hk with hnone | hsome
  · exact .inl hnone
  · exact .inr (hn.execution_kind_refs kind_ref (hpermitted.resolve_left hsome))

theorem taskModel_mono (h : taskModel fields child pointer = .ok model) :
    taskModel fields parent.toAuthority pointer = .ok model := by
  simp only [taskModel, bind_ok, ensure_ok, pure_ok] at h ⊢
  obtain ⟨model_ref, href, -, hpermitted, rfl⟩ := h
  refine ⟨model_ref, href, (), ?_, rfl⟩
  cases model_ref with
  | none => rfl
  | some name =>
    simp only [contains_eq_mem, decide_eq_true_eq] at hpermitted ⊢
    exact hn.model_refs name hpermitted

theorem taskTools_mono (h : taskTools fields child pointer = .ok tools) :
    taskTools fields parent.toAuthority pointer = .ok tools := by
  simp only [taskTools, bind_ok, ensure_ok, pure_ok, beq_iff_eq, length_eq_zero_iff, notIn_eq_nil] at h ⊢
  obtain ⟨tool_refs, hrefs, -, hpermitted, rfl⟩ := h
  exact ⟨tool_refs, hrefs, (), fun tool ht => hn.tool_refs tool (hpermitted tool ht), rfl⟩

theorem requireReference_mono (h : requireReference child producers name pointer reference = .ok u) :
    requireReference parent.toAuthority producers name pointer reference = .ok u := by
  simp only [requireReference] at h ⊢
  split
  · rfl
  case isFalse hp =>
    have hc : ¬ child.inputs.contains reference = true := by
      intro hc
      simp only [contains_eq_mem, decide_eq_true_eq] at hc hp
      exact hp (hn.inputs reference hc)
    rwa [if_neg hc] at h

theorem taskInputs_mono (h : taskInputs fields child kind producers pointer = .ok inputs) :
    taskInputs fields parent.toAuthority kind producers pointer = .ok inputs := by
  simp only [taskInputs, validateInputs, bind_ok, ensure_ok, pure_ok] at h ⊢
  obtain ⟨bound, hbound, u, ⟨-, hmissing, -, hunknown, read, hread, hu⟩, rfl⟩ := h
  refine ⟨bound, hbound, u, ⟨(), hmissing, (), hunknown, read, ?_, hu⟩, rfl⟩
  exact each_mono (fun _ _ hinner => each_mono (fun _ _ => requireReference_mono hn) hinner) hread

theorem taskOutcomes_mono (h : taskOutcomes fields child pointer = .ok outcomes) :
    taskOutcomes fields parent.toAuthority pointer = .ok outcomes := by
  simp only [taskOutcomes, bind_ok, ensure_ok, pure_ok, beq_iff_eq, length_eq_zero_iff, notIn_eq_nil] at h ⊢
  obtain ⟨required, hrequired, -, hpermitted, rfl⟩ := h
  exact ⟨required, hrequired, (), fun o ho => hn.required_outcomes o (hpermitted o ho), rfl⟩

/-- The read scope may be another under the parent, as a specification that
declares none has its grant's. -/
theorem taskScopes_mono (hparent : Validated P parent.toAuthority)
    (hchild : Validated P child) (hread : readNarrowed P parent.scope child.scope)
    (hwrite : scopeNarrowed parent.write_scope child.write_scope = true)
    (h : taskScopes P fields child pointer = .ok (write_zone, path_scope)) :
    ∃ path_scope', taskScopes P fields parent.toAuthority pointer = .ok (write_zone, path_scope') := by
  simp only [taskScopes_ok] at h ⊢
  obtain ⟨hzone, ⟨hdeclared, hform⟩, hcontains, hwritten⟩ := h
  have hwritten' := containsScope_trans hn.write_scope hwrite hwritten
  unfold declaredScope at hdeclared ⊢
  split at hdeclared
  case isTrue ht =>
    rw [if_pos ht]
    exact ⟨path_scope, hzone, ⟨hdeclared, hform⟩, containsScope_read hn.scope hread
      hchild.scope.patterns hform.patterns hcontains, hwritten'⟩
  case isFalse ht =>
    rw [if_neg ht]
    exact ⟨parent.scope, hzone, ⟨rfl, hparent.scope⟩, containsScope_self _, hwritten'⟩

theorem confined_of_narrowed (hparent : Validated P parent.toAuthority)
    (hchild : Validated P child) (hkinds : kindsNarrowed parent.toAuthority child)
    (hread : readNarrowed P parent.scope child.scope)
    (hwrite : scopeNarrowed parent.write_scope child.write_scope = true) :
    Confined P parent.toAuthority child := by
  intro value pointer definitions known_tasks producers spec h
  simp only [validateTaskSpec, bind_ok] at h ⊢
  obtain ⟨fields, hfields, u, hunknown, task_id, hid, role, hrole, kind, hkind, model, hmodel, tools,
    htools, contract, hcontract, inputs, hinputs, edges, hedges, ⟨write_zone, path_scope⟩, hscopes,
    outcomes, houtcomes, rest⟩ := h
  obtain ⟨path_scope', hscopes'⟩ := taskScopes_mono hn hparent hchild hread hwrite hscopes
  obtain ⟨expansion_id, hexpansion, required, hrequired, priority, hpriority, supersedes, hsupersedes,
    coverage, hcoverage, -⟩ := rest
  exact ⟨_, fields, hfields, u, hunknown, task_id, hid, role, taskRole_mono hn hrole, kind,
    taskKind_mono hn hkinds hkind, model, taskModel_mono hn hmodel, tools, taskTools_mono hn htools,
    contract, hcontract, inputs, taskInputs_mono hn hinputs, edges, hedges, (write_zone, path_scope'),
    hscopes', outcomes, taskOutcomes_mono hn houtcomes, expansion_id, hexpansion, required, hrequired,
    priority, hpriority, supersedes, hsupersedes, coverage, hcoverage, rfl⟩

end

-- What escapes a parent

/-- The fields of a specification that states its role, kind, contract and paths alone. -/
def bareFields (alias_id kind_ref write_zone : String) (path_scope : Json) : Fields :=
  [("role_alias", .str alias_id), ("execution_kind_ref", .str kind_ref),
    ("output_contract_ref", .str "c"), ("write_zone", .str write_zone), ("path_scope", path_scope)]

def bareDefinitions (kind_ref : String) : Definitions where
  role_refs := .empty
  execution_kinds := Dict.empty.put kind_ref ⟨[], [], []⟩
  contracts := ["c"]

theorem bareSpec_ok (halias : IdentifierForm alias_id)
    (hrole : authority.role_refs.get? alias_id = some reference) (hkind : IdentifierForm kind_ref)
    (hpermitted : authority.execution_kind_refs = [] ∨ kind_ref ∈ authority.execution_kind_refs)
    (hzone : PathForm P write_zone) (hscope : declaredScope path_scope authority = ofTexts paths)
    (hpaths : ScopeForm P paths) (hread : containsScope authority.scope paths = true)
    (hwrite : containsScope authority.write_scope [write_zone] = true) :
    ∃ spec, validateTaskSpec P (.object (bareFields alias_id kind_ref write_zone path_scope)) authority
      "" (bareDefinitions kind_ref) .empty [] = .ok spec := by
  have hname : IdentifierForm "c" := by constructor <;> decide +kernel
  let fields := bareFields alias_id kind_ref write_zone path_scope
  have hidentity : statedIdentity fields "" = .ok none := rfl
  have hroles : taskRole fields authority "" = .ok (alias_id, reference) := by
    simp only [taskRole, bind_ok, boundedIdentifier_iff, need_ok, pure_ok]
    exact ⟨alias_id, ⟨rfl, halias⟩, reference, hrole, rfl⟩
  have hkinds : taskKind fields authority (bareDefinitions kind_ref) "" = .ok (kind_ref, ⟨[], [], []⟩) := by
    simp only [taskKind, Definitions.requireKind, bind_ok, boundedIdentifier_iff, need_ok, ensure_ok, pure_ok]
    exact ⟨kind_ref, ⟨rfl, hkind⟩, _, by simp [bareDefinitions], (), by simpa using hpermitted, rfl⟩
  have hmodel : taskModel fields authority "" = .ok none := rfl
  have htools : taskTools fields authority "" = .ok [] := rfl
  have hcontract : taskContract fields (bareDefinitions kind_ref) kind_ref ⟨[], [], []⟩ "" = .ok "c" := by
    simp only [taskContract, requireContractForKind, Definitions.requireContract, bind_ok,
      boundedIdentifier_iff, ensure_ok, pure_ok]
    exact ⟨"c", ⟨rfl, hname⟩, (), by simp, (), by simp [bareDefinitions], rfl⟩
  have hinputs : taskInputs fields authority ⟨[], [], []⟩ [] "" = .ok [] := rfl
  have hedges : taskEdges fields [] [] none "" = .ok ⟨[], [], [], []⟩ := rfl
  have hscopes : taskScopes P fields authority "" = .ok (write_zone, paths) :=
    taskScopes_ok.mpr ⟨⟨rfl, hzone⟩, ⟨hscope, hpaths⟩, hread, hwrite⟩
  have houtcomes : taskOutcomes fields authority "" = .ok [] := rfl
  simp only [validateTaskSpec, bind_ok, ensure_ok]
  exact ⟨_, fields, rfl, (), by rfl, none, hidentity, _, hroles, _, hkinds, none, hmodel, [], htools, "c",
    hcontract, [], hinputs, _, hedges, _, hscopes, [], houtcomes, none, rfl, true, rfl, 0, rfl, none, rfl,
    [], rfl, rfl⟩

/-- The kind and the paths an accepted specification passed with. -/
structure Permits (P : Platform) (authority : Authority) (fields : Fields) (kind_ref : String)
    (write_zone : String) (path_scope : List String) : Prop where
  kind : field fields "execution_kind_ref" = .str kind_ref ∧ IdentifierForm kind_ref
  permitted : authority.execution_kind_refs = [] ∨ kind_ref ∈ authority.execution_kind_refs
  zone : field fields "write_zone" = .str write_zone
  declared : declaredScope (field fields "path_scope") authority = ofTexts path_scope
  read : containsScope authority.scope path_scope = true
  write : containsScope authority.write_scope [write_zone] = true

theorem validateTaskSpec_permits
    (h : validateTaskSpec P (.object fields) authority pointer definitions known_tasks producers = .ok spec) :
    ∃ kind_ref write_zone path_scope, Permits P authority fields kind_ref write_zone path_scope := by
  simp only [validateTaskSpec, bind_ok, need_ok, Json.object?_eq_some, Json.object.injEq] at h
  obtain ⟨_, rfl, -, -, _, -, _, -, kind, hkind, _, -, _, -, _, -, _, -, _, -, ⟨write_zone, path_scope⟩,
    hscopes, -⟩ := h
  obtain ⟨⟨hzone, -⟩, ⟨hdeclared, -⟩, hread, hwrite⟩ := taskScopes_ok.mp hscopes
  simp only [taskKind, bind_ok, ensure_ok, boundedIdentifier_iff] at hkind
  obtain ⟨kind_ref, href, -, -, -, hpermitted, -⟩ := hkind
  exact ⟨kind_ref, write_zone, path_scope, href, by simpa using hpermitted, hzone, hdeclared, hread, hwrite⟩

theorem exists_bareSpec (hchild : Validated P child) (hname : nameable child)
    (hzone : PathForm P write_zone) (hscope : declaredScope path_scope child = ofTexts paths)
    (hpaths : ScopeForm P paths) (hread : containsScope child.scope paths = true)
    (hwrite : containsScope child.write_scope [write_zone] = true) : ∃ alias_id kind_ref spec, validateTaskSpec P
      (.object (bareFields alias_id kind_ref write_zone path_scope)) child "" (bareDefinitions kind_ref)
      .empty [] = .ok spec := by
  obtain ⟨alias_id, reference, hrole, halias⟩ := hchild.role
  obtain ⟨kind_ref, hkind, hpermitted⟩ : ∃ kind_ref, IdentifierForm kind_ref ∧
      (child.execution_kind_refs = [] ∨ kind_ref ∈ child.execution_kind_refs) := by
    rcases hname with hnone | ⟨kind_ref, hmem, hform⟩
    · exact ⟨"c", by constructor <;> decide +kernel, .inl hnone⟩
    · exact ⟨kind_ref, hform, .inr hmem⟩
  exact ⟨alias_id, kind_ref, bareSpec_ok halias hrole hkind hpermitted hzone hscope hpaths hread hwrite⟩

theorem letter_identifier (hc : 256 ≤ c.toNat) : IdentifierForm (String.ofList [c]) where
  length := by simp
  printable := by
    simp only [String.toList_ofList, any_cons, any_nil, Bool.or_false, unprintable,
      Bool.or_eq_false_iff, decide_eq_false_iff_not, beq_eq_false_iff_ne]
    exact ⟨fun hlt => by have : c.toNat < 32 := hlt; omega, letter_ne hc⟩
  one_name := by
    simp only [String.toList_ofList, forbidden, any_cons, any_nil, Bool.or_false,
      contains_eq_mem, Bool.or_eq_false_iff, decide_eq_false_iff_not, mem_cons,
      not_mem_nil, or_false, not_or]
    exact ⟨⟨letter_ne hc, letter_ne hc, letter_ne hc, letter_ne hc, letter_ne hc, letter_ne hc,
      letter_ne hc, letter_ne hc⟩, (letter_ne hc).symm⟩
  shown := by simpa using letter_ne (d := '.') hc

theorem Validated.zone (h : Validated P child) : ∃ write_zone, PathForm P write_zone ∧
    containsScope child.write_scope [write_zone] = true := by
  obtain ⟨hsome, -⟩ := h.write_scope.length
  obtain ⟨pattern, hmem⟩ := exists_mem_of_length_pos (Nat.pos_of_ne_zero hsome)
  refine ⟨patternRoot pattern, (h.write_scope.patterns pattern hmem).root, ?_⟩
  rw [containsScope_iff]
  intro candidate hc
  rw [List.mem_singleton.mp hc]
  exact ⟨pattern, hmem, Paths.under_refl⟩

theorem kindsNarrowed_of_confined (hparent : Validated P parent.toAuthority)
    (hchild : Validated P child) (h : Confined P parent.toAuthority child) :
    kindsNarrowed parent.toAuthority child := by
  by_contra hno
  simp only [kindsNarrowed, not_or, not_not] at hno
  obtain ⟨hsome, hnone⟩ := hno
  obtain ⟨c, hc, -, hfresh⟩ := fresh_letter (parent.execution_kind_refs.map fun kind => kind.toList[0]?)
    (by simpa using hparent.kinds)
  obtain ⟨alias_id, reference, hrole, halias⟩ := hchild.role
  obtain ⟨write_zone, hzone, hwrite⟩ := hchild.zone
  obtain ⟨spec, hspec⟩ := bareSpec_ok halias hrole (letter_identifier hc) (.inl hnone) hzone
    (show declaredScope .null child = ofTexts child.scope from rfl) hchild.scope (containsScope_self _) hwrite
  obtain ⟨spec', hspec'⟩ := h _ _ _ _ _ _ hspec
  obtain ⟨kind_ref, _, _, hp⟩ := validateTaskSpec_permits hspec'
  have hkind : String.ofList [c] = kind_ref := str.inj hp.kind.1
  refine hfresh (List.mem_map.mpr ⟨kind_ref, hp.permitted.resolve_left hsome, ?_⟩)
  simp [← hkind]

theorem ofTexts_inj : ofTexts texts = ofTexts texts' ↔ texts = texts' := by
  simp only [ofTexts, Json.list.injEq]
  exact (List.map_injective_iff.mpr fun _ _ h => str.inj h).eq_iff

theorem readNarrowed_of_confined (hparent : Validated P parent.toAuthority)
    (hchild : Validated P child) (hname : nameable child) (h : Confined P parent.toAuthority child) :
    readNarrowed P parent.scope child.scope := by
  intro pattern hmem hw
  by_contra hno
  simp only [not_or, Bool.not_eq_true] at hno
  obtain ⟨escape, hform, hcovers, hescapes⟩ := exists_escape hparent.scope.length.2
    (hchild.scope.patterns pattern hmem) hw hno.1 hno.2
  obtain ⟨write_zone, hzone, hwrite⟩ := hchild.zone
  have hread : containsScope child.scope [escape] = true := by
    simpa [containsScope] using ⟨pattern, hmem, hcovers⟩
  obtain ⟨alias_id, kind_ref, spec, hspec⟩ := exists_bareSpec hchild hname hzone
    (show declaredScope (ofTexts [escape]) child = ofTexts [escape] from rfl) ⟨by simp, by simpa using hform, by simp⟩ hread hwrite
  obtain ⟨spec', hspec'⟩ := h _ _ _ _ _ _ hspec
  obtain ⟨_, _, path_scope, hp⟩ := validateTaskSpec_permits hspec'
  have hscope : [escape] = path_scope := ofTexts_inj.mp hp.declared
  rw [hscope, hp.read] at hescapes
  cases hescapes

theorem scopeNarrowed_of_confined (hchild : Validated P child) (hname : nameable child)
    (h : Confined P parent.toAuthority child) : scopeNarrowed parent.write_scope child.write_scope = true := by
  simp only [scopeNarrowed, all_eq_true, Bool.or_eq_true, Bool.not_eq_true']
  intro pattern hmem
  cases hw : endsWith pattern "/**" with
  | false => exact .inl rfl
  | true =>
    refine .inr ((coversRoot_iff hw).mpr ?_)
    have hwrite : containsScope child.write_scope [patternRoot pattern] = true := by
      simpa [containsScope] using ⟨pattern, hmem, patternCovers_iff.mpr Paths.under_refl⟩
    obtain ⟨alias_id, kind_ref, spec, hspec⟩ := exists_bareSpec hchild hname
      (hchild.write_scope.patterns pattern hmem).root
      (show declaredScope .null child = ofTexts child.scope from rfl) hchild.scope (containsScope_self _) hwrite
    obtain ⟨spec', hspec'⟩ := h _ _ _ _ _ _ hspec
    obtain ⟨_, write_zone, _, hp⟩ := validateTaskSpec_permits hspec'
    have hzone : patternRoot pattern = write_zone := str.inj hp.zone
    rw [hzone]
    exact hp.write

/-- A child that passed the narrowing check is confined to its parent exactly if
no task can name a kind it permits, or the three dimensions are narrowed: it
names kinds where its parent does, and what it may read and write is inside
what its parent may, wildcards and all. -/
theorem confined_iff {parent_value child_value : Json} {parent_payload child_payload : GrantPayload}
    (hparent : validateGrantPayload P parent_value = .ok parent_payload)
    (hauthority : parent.toAuthority = parent_payload.toAuthority)
    (hchild : validateGrantPayload P child_value = .ok child_payload)
    (hsubset : requireSubset parent child_payload.toAuthority = .ok ()) :
    Confined P parent.toAuthority child_payload.toAuthority ↔ ¬ nameable child_payload.toAuthority ∨
        (kindsNarrowed parent.toAuthority child_payload.toAuthority ∧
          readNarrowed P parent.scope child_payload.scope ∧
          scopeNarrowed parent.write_scope child_payload.write_scope = true) := by
  have hp : Validated P parent.toAuthority := hauthority ▸ validateGrantPayload_ok hparent
  have hc := validateGrantPayload_ok hchild
  have hn := requireSubset_ok hsubset
  constructor
  · intro h
    by_cases hname : nameable child_payload.toAuthority
    · exact .inr ⟨kindsNarrowed_of_confined hp hc h, readNarrowed_of_confined hp hc hname h,
        scopeNarrowed_of_confined hc hname h⟩
    · exact .inl hname
  · rintro (hname | ⟨hkinds, hread, hwrite⟩)
    · intro value pointer definitions known_tasks producers spec h
      refine absurd ?_ hname
      cases value with
      | object fields =>
        obtain ⟨kind_ref, _, _, hpermits⟩ := validateTaskSpec_permits h
        exact hpermits.permitted.imp_right fun hmem => ⟨kind_ref, hmem, hpermits.kind.2⟩
      | _ => cases h
    · exact confined_of_narrowed hn hp hc hkinds hread hwrite

def Sample.root (payload : GrantPayload) : Grant := rootDocument platform Sample.key Sample.frozen payload 0

def Sample.narrows (parent_value child_value : Json) (test : Grant → GrantPayload → Bool) : Bool :=
  match validateGrantPayload platform parent_value, validateGrantPayload platform child_value with
  | .ok parent, .ok child =>
    (requireSubset (Sample.root parent) child.toAuthority).isOk && test (Sample.root parent) child
  | _, _ => false

theorem sample_narrows (h : Sample.narrows parent_value child_value test = true) :
    ∃ parent child, validateGrantPayload platform parent_value = .ok parent ∧
      validateGrantPayload platform child_value = .ok child ∧
      requireSubset (Sample.root parent) child.toAuthority = .ok () ∧
      test (Sample.root parent) child = true := by
  unfold Sample.narrows at h
  split at h
  case h_1 parent child hparent hchild =>
    rw [Bool.and_eq_true] at h
    obtain ⟨_, hsubset⟩ := ok_of_isOk h.1
    exact ⟨parent, child, hparent, hchild, hsubset, h.2⟩
  · cases h

/-- A child that names its parent's only kind, over its only directory, is confined. -/
theorem confined_iff_same : ∃ parent child, requireSubset parent child = .ok () ∧
      Confined platform parent.toAuthority child := by
  have hnarrows : Sample.narrows delegating
      (grant "h" [.expandGraph] [("execution_kind_refs", ofTexts ["k"])])
      (fun parent child => child.execution_kind_refs = ["k"] && child.scope = ["d"] &&
        scopeNarrowed parent.write_scope child.write_scope) = true := by decide +kernel
  obtain ⟨parent, child, hparent, hchild, hsubset, htest⟩ := sample_narrows hnarrows
  simp only [Bool.and_eq_true, decide_eq_true_eq] at htest
  obtain ⟨⟨hkinds, hscope⟩, hwrite⟩ := htest
  refine ⟨_, _, hsubset, (confined_iff hparent rfl hchild hsubset).mpr (.inr ⟨.inr ?_, ?_, hwrite⟩)⟩
  · simp [hkinds]
  · intro pattern hmem hw
    rw [hscope, mem_singleton] at hmem
    rw [hmem] at hw
    exact absurd hw (by decide +kernel)

/-- A child that names no kinds is accepted under a parent that names one, and
permits every kind. -/
theorem kinds_escape : ∃ parent_value child_value parent_payload child_payload,
      validateGrantPayload platform parent_value = .ok parent_payload ∧
      validateGrantPayload platform child_value = .ok child_payload ∧
      requireSubset (Sample.root parent_payload) child_payload.toAuthority = .ok () ∧
      ¬ Confined platform (Sample.root parent_payload).toAuthority child_payload.toAuthority := by
  have hnarrows : Sample.narrows delegating (grant "h" [.expandGraph])
      (fun parent child =>
        parent.execution_kind_refs = ["k"] && child.execution_kind_refs = []) = true := by
    decide +kernel
  obtain ⟨parent, child, hparent, hchild, hsubset, htest⟩ := sample_narrows hnarrows
  simp only [Bool.and_eq_true, decide_eq_true_eq] at htest
  refine ⟨_, _, parent, child, hparent, hchild, hsubset, fun h => ?_⟩
  have hkinds := kindsNarrowed_of_confined (validateGrantPayload_ok hparent)
    (validateGrantPayload_ok hchild) h
  rcases hkinds with hnone | hsome
  · rw [htest.1] at hnone; cases hnone
  · exact hsome htest.2

end Karajan.Scheduling

-- What an accepted task specification is

namespace Karajan.Scheduling

open Check

def statedTexts (value : Json) : List String := (texts? value).getD []

theorem each_identifier_ok (h : each (fun item => boundedIdentifier (.str item) code pointer) items = .ok names) :
    names = items := by
  refine each_ok_id ?_ h
  intro item name hname
  cases boundedIdentifier_ok hname
  rfl

theorem identifierList_ok (h : identifierList value code pointer = .ok names) : names = statedTexts value := by
  simp only [identifierList, bind_ok] at h
  obtain ⟨items, hitems, hnames⟩ := h
  rw [each_identifier_ok hnames]
  unfold listOf at hitems
  split at hitems
  · cases hitems; rfl
  · simp only [textList, bind_ok, need_ok, pure_ok] at hitems
    obtain ⟨_, htexts, -, -, -, -, rfl⟩ := hitems
    simp [statedTexts, htexts]

theorem actionIdentifiers_ok (h : actionIdentifiers fields name pointer = .ok names) :
    names = sorted (statedTexts (field fields name)) := by
  simp only [actionIdentifiers, bind_ok, pure_ok] at h
  obtain ⟨items, hitems, names', hnames, rfl⟩ := h
  rw [each_identifier_ok hnames]
  unfold storeTextList at hitems
  split at hitems
  case h_1 hnull => cases hitems; rw [hnull]; rfl
  · simp only [bind_ok, need_ok, pure_ok] at hitems
    obtain ⟨_, htexts, -, -, rfl⟩ := hitems
    simp [statedTexts, htexts]

/-- What an accepted specification says, and what it was checked against. -/
structure AcceptedSpec (authority : Authority) (known_tasks : Dict String Task)
    (producers : List String) (fields : Fields) (spec : TaskSpec) : Prop where
  role : authority.role_refs.get? spec.role_alias = some spec.role_ref
  model : ∀ model, spec.model_ref = some model → model ∈ authority.model_refs
  tools : ∀ tool ∈ spec.tool_refs, tool ∈ authority.tool_refs
  inferred : spec.inferred_depends_on = inferredDependencies spec.inputs producers
  depends : spec.depends_on =
    sortedSet (statedTexts (fieldD fields "depends_on" (.list [])) ++ spec.inferred_depends_on)
  joins : spec.joins = sorted (statedTexts (fieldD fields "joins" (.list [])))
  inputs : fieldD fields "inputs" (.object []) = .object spec.inputs
  read : containsScope authority.scope spec.path_scope = true
  write : containsScope authority.write_scope [spec.write_zone] = true
  permitted : ∀ outcome ∈ spec.required_outcomes, outcome ∈ authority.required_outcomes
  outcomes : spec.required_outcomes = sorted (statedTexts (fieldD fields "required_outcomes" (.list [])))
  required : fieldD fields "required" (.bool true) = .bool spec.required
  item_key : spec.item_key = field fields "item_key"
  supersedes : ∀ replaced, spec.supersedes = some replaced →
    field fields "supersedes" = .str replaced ∧ ∃ task, known_tasks.get? replaced = some task

theorem taskRole_ok (h : taskRole fields authority pointer = .ok (role_alias, role_ref)) :
    authority.role_refs.get? role_alias = some role_ref := by
  simp only [taskRole, bind_ok, need_ok, pair_ok] at h
  obtain ⟨_, -, _, hget, rfl, rfl⟩ := h
  exact hget

theorem taskModel_ok (h : taskModel fields authority pointer = .ok model_ref)
    (hmodel : model_ref = some model) : model ∈ authority.model_refs := by
  simp only [taskModel, bind_ok, ensure_ok, pure_ok] at h
  obtain ⟨_, -, _, hpermitted, rfl⟩ := h
  subst hmodel
  simpa using hpermitted

theorem taskTools_ok (h : taskTools fields authority pointer = .ok tool_refs) :
    ∀ tool ∈ tool_refs, tool ∈ authority.tool_refs := by
  simp only [taskTools, bind_ok, ensure_ok, pure_ok, beq_iff_eq, List.length_eq_zero_iff, notIn_eq_nil] at h
  obtain ⟨_, -, -, hpermitted, rfl⟩ := h
  intro tool ht
  exact hpermitted tool (mem_sorted.mp ht)

theorem taskInputs_ok (h : taskInputs fields authority kind producers pointer = .ok inputs) :
    fieldD fields "inputs" (.object []) = .object inputs := by
  simp only [taskInputs, bind_ok, need_ok, Json.object?_eq_some, pure_ok] at h
  obtain ⟨_, hstated, -, -, rfl⟩ := h
  exact hstated

theorem taskEdges_ok (h : taskEdges fields inputs producers task_id pointer = .ok edges) :
    edges.inferred_depends_on = inferredDependencies inputs producers ∧
      edges.depends_on = sortedSet
        (statedTexts (fieldD fields "depends_on" (.list [])) ++ edges.inferred_depends_on) ∧
      edges.joins = sorted (statedTexts (fieldD fields "joins" (.list []))) := by
  simp only [taskEdges, bind_ok, pure_ok] at h
  obtain ⟨declared, hdeclared, -, -, joins, hjoins, rfl⟩ := h
  rw [identifierList_ok hdeclared, identifierList_ok hjoins]
  exact ⟨rfl, rfl, rfl⟩

theorem taskOutcomes_ok (h : taskOutcomes fields authority pointer = .ok outcomes) :
    outcomes = sorted (statedTexts (fieldD fields "required_outcomes" (.list []))) ∧
      ∀ outcome ∈ outcomes, outcome ∈ authority.required_outcomes := by
  simp only [taskOutcomes, bind_ok, ensure_ok, pure_ok, beq_iff_eq, List.length_eq_zero_iff, notIn_eq_nil] at h
  obtain ⟨stated, hstated, -, hpermitted, rfl⟩ := h
  refine ⟨by rw [identifierList_ok hstated], fun outcome ho => ?_⟩
  exact hpermitted outcome (mem_sorted.mp ho)

theorem validateTaskSpec_ok
    (h : validateTaskSpec P value authority pointer definitions known_tasks producers = .ok spec) :
    ∃ fields, value = .object fields ∧ AcceptedSpec authority known_tasks producers fields spec := by
  simp only [validateTaskSpec, bind_ok, need_ok, Json.object?_eq_some, pure_ok] at h
  obtain ⟨fields, hvalue, -, -, task_id, -, ⟨role_alias, role_ref⟩, hrole, ⟨kind_ref, kind⟩, -,
    model_ref, hmodel, tool_refs, htools, contract, -, inputs, hinputs, edges, hedges,
    ⟨write_zone, path_scope⟩, hscopes, outcomes, houtcomes, expansion_id, -, required, hrequired,
    priority, -, supersedes, hsupersedes, coverage, -, rfl⟩ := h
  obtain ⟨-, -, hread, hwrite⟩ := taskScopes_ok.mp hscopes
  obtain ⟨hinferred, hdepends, hjoins⟩ := taskEdges_ok hedges
  obtain ⟨hstated, hpermitted⟩ := taskOutcomes_ok houtcomes
  refine ⟨fields, hvalue, taskRole_ok hrole, fun _ => taskModel_ok hmodel, taskTools_ok htools,
    hinferred, hdepends, hjoins, taskInputs_ok hinputs, hread, hwrite, hpermitted, hstated, ?_, rfl, ?_⟩
  · cases hvalue : fieldD fields "required" (.bool true) <;> rw [hvalue] at hrequired <;>
      simp_all [Json.bool?]
  · intro replaced hreplaced
    rcases optional_ok.mp hsupersedes with ⟨-, hnone⟩ | ⟨-, id', hid, hsome⟩
    · rw [hnone] at hreplaced; cases hreplaced
    · rw [hsome] at hreplaced; cases hreplaced
      simp only [requireSuperseded, bind_ok, need_ok, pure_ok] at hid
      obtain ⟨_, hstated, task, htask, -, -, rfl⟩ := hid
      exact ⟨boundedIdentifier_ok hstated, task, htask⟩

end Karajan.Scheduling
