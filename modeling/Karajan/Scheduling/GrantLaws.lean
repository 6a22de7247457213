import Karajan.Scheduling.Grants
import Karajan.Scheduling.Scopes

/-!
# What a grant check establishes

`validateGrantPayload_ok` says what an accepted grant command carries, and
`requireSubset_ok` what a child that passed the narrowing check shares with its
parent.
-/

namespace Karajan.Scheduling

open List Dict Check

-- An accepted command

structure IdentifierForm (text : String) : Prop where
  length : 1 ≤ text.toList.length ∧ text.toList.length ≤ 128
  printable : text.toList.any unprintable = false
  one_name : (text.toList.any forbidden.contains || text.toList.contains '/') = false
  shown : text.toList.head? ≠ some '.'

theorem boundedIdentifier_iff : boundedIdentifier value code pointer = .ok text ↔
    value = .str text ∧ IdentifierForm text := by
  simp only [boundedIdentifier, bind_ok, need_ok, ensure_ok, pure_ok, Json.str?_eq_some,
    Bool.and_eq_true, decide_eq_true_eq, Bool.not_eq_true', bne_iff_ne, ne_eq]
  constructor
  · rintro ⟨_, rfl, -, hlength, -, hprint, -, hname, -, hshown, rfl⟩
    exact ⟨rfl, hlength, hprint, hname, hshown⟩
  · rintro ⟨rfl, h⟩
    exact ⟨text, rfl, (), h.length, (), h.printable, (), h.one_name, (), h.shown, rfl⟩

structure ScopeForm (P : Platform) (scope : List String) : Prop where
  length : scope.length ≠ 0 ∧ scope.length ≤ 256
  patterns : ∀ pattern ∈ scope, PatternForm P pattern
  nodup : scope.Nodup

theorem each_pattern_ok {pointer : String} :
    each (fun (item, index) => normalizedPattern P item code s!"{pointer}/{index}")
        (items.zipIdx start) = .ok patterns ↔
      items = patterns.map .str ∧ ∀ pattern ∈ patterns, PatternForm P pattern := by
  induction items generalizing start patterns with
  | nil => cases patterns <;> simp [each]
  | cons item items ih =>
    rw [zipIdx_cons, each_cons_ok]
    simp only [normalizedPattern_ok, ih]
    constructor
    · rintro ⟨pattern, rest, ⟨rfl, hp⟩, ⟨rfl, hrest⟩, rfl⟩
      simpa using ⟨hp, hrest⟩
    · rintro ⟨hitems, hforms⟩
      cases patterns with
      | nil => simp at hitems
      | cons pattern rest =>
        simp only [map_cons, List.cons.injEq, mem_cons, forall_eq_or_imp] at hitems hforms
        exact ⟨pattern, rest, ⟨hitems.1, hforms.1⟩, ⟨hitems.2, hforms.2⟩, rfl⟩

theorem normalizedScopes_ok : normalizedScopes P value code pointer = .ok scope ↔
    value = Json.ofTexts scope ∧ ScopeForm P scope := by
  simp only [normalizedScopes, normalizedPatterns, bind_ok, need_ok, ensure_ok, pure_ok,
    Json.list?_eq_some, each_pattern_ok, decide_eq_true_eq, bne_iff_ne, ne_eq]
  constructor
  · rintro ⟨_, rfl, -, hsome, -, hbound, _, ⟨rfl, hforms⟩, -, hnodup, rfl⟩
    simp only [length_map] at hsome hbound
    exact ⟨rfl, ⟨hsome, hbound⟩, hforms, hnodup⟩
  · rintro ⟨rfl, h⟩
    exact ⟨_, rfl, (), by simpa using h.length.1, (), by simpa using h.length.2, scope,
      ⟨rfl, h.patterns⟩, (), h.nodup, rfl⟩

theorem ScopeForm.sorted (h : ScopeForm P scope) : ScopeForm P (sorted scope) where
  length := by simpa using h.length
  patterns pattern hp := h.patterns pattern (mem_sorted.mp hp)
  nodup := (perm_insertionSort _ scope).nodup_iff.mpr h.nodup

structure Validated (P : Platform) (authority : Authority) : Prop where
  role : ∃ alias_id reference, authority.role_refs.get? alias_id = some reference ∧
    IdentifierForm alias_id
  kinds : authority.execution_kind_refs.length ≤ 256
  scope : ScopeForm P authority.scope
  write_scope : ScopeForm P authority.write_scope
  delegation : authority.delegation.allowed = true → 1 ≤ authority.delegation.maximum_depth

theorem validateDelegation_ok (h : validateDelegation value pointer = .ok delegation)
    (hallowed : delegation.allowed = true) : 1 ≤ delegation.maximum_depth := by
  unfold validateDelegation at h
  split at h
  · cases h; cases hallowed
  · simp only [bind_ok] at h
    obtain ⟨_, -, h⟩ := h
    split at h
    · simp only [bind_ok, ensure_ok, pure_ok, decide_eq_true_eq] at h
      obtain ⟨_, -, _, hbound, _, -, _, -, rfl⟩ := h
      exact hbound
    · cases h; cases hallowed
  · cases h

theorem referenceList_length (h : referenceList value code pointer = .ok items) : items.length ≤ 256 := by
  unfold referenceList at h
  split at h
  · cases h; simp
  · simp only [bind_ok, ensure_ok, decide_eq_true_eq] at h
    obtain ⟨_, -, -, hlength, -, -, h⟩ := h
    rw [each_length h]
    exact hlength

theorem roles_ok {roles : Fields} {role_refs : List (String × String)} (hsome : roles.length ≠ 0)
    (h : each validateRoleRef roles = .ok role_refs) :
    ∃ alias_id reference, (ofList role_refs).get? alias_id = some reference ∧
      IdentifierForm alias_id := by
  cases roles with
  | nil => simp at hsome
  | cons role roles =>
    obtain ⟨⟨alias_id, reference⟩, rest, hrole, -, rfl⟩ := each_cons_ok.mp h
    simp only [validateRoleRef, bind_ok, pair_ok, boundedIdentifier_iff] at hrole
    obtain ⟨name, ⟨-, hform⟩, target, -, rfl, rfl⟩ := hrole
    have hkey : name ∈ (ofList ((name, target) :: rest)).keys := Dict.mem_keys_ofList.mpr (mem_cons_self ..)
    obtain ⟨bound, hget⟩ := Dict.mem_keys.mp hkey
    exact ⟨name, bound, hget, hform⟩

theorem validateGrantPayload_ok (h : validateGrantPayload P value = .ok parsed) :
    Validated P parsed.toAuthority := by
  simp only [validateGrantPayload, bind_ok, ensure_ok, pure_ok] at h
  obtain ⟨_, -, -, -, _, -, _, -, _, -, _, -, -, -, _, -, _, -, _, -, _, -, kinds, hkinds, roles, -, -,
    hroles, role_refs, hrefs, _, -, _, -, scope, hscope, write_scope, hwrite, _, -, _, -, _, hdelegation,
    _, -, rfl⟩ := h
  rw [normalizedScopes_ok] at hscope hwrite
  refine ⟨roles_ok (by simpa using hroles) hrefs, ?_, hscope.2.sorted, hwrite.2.sorted,
    validateDelegation_ok hdelegation⟩
  simpa using referenceList_length hkinds

-- A narrowed child

theorem subset_ok {inner : List String} : subset outer inner dimension = .ok u ↔ ∀ item ∈ inner, item ∈ outer := by
  simp [subset, ensure_ok, length_eq_zero_iff, notIn_eq_nil]

theorem subset_actions_ok {outer inner : List Action} :
    subset (outer.map Action.text) (inner.map Action.text) dimension = .ok u ↔
      ∀ action ∈ inner, action ∈ outer := by
  rw [subset_ok]
  simp only [forall_mem_map, mem_map_of_injective Action.text_injective]

theorem requireRoleRef_ok {parent : Authority} :
    requireRoleRef parent role = .ok u ↔ parent.role_refs.get? role.1 = some role.2 := by
  simp [requireRoleRef, ensure_ok]

theorem requireArtifact_ok {parent child : Option Artifact} (h : requireArtifact parent child = .ok u)
    (hc : child = some artifact) : ∃ permitted, parent = some permitted ∧
      artifact.rank ≤ permitted.rank := by
  subst hc
  cases parent with
  | none => cases h
  | some permitted => exact ⟨permitted, rfl, by simpa [requireArtifact, ensure_ok] using h⟩

theorem requireExpiry_ok {parent child : Option Rat} (h : requireExpiry parent child = .ok u)
    (hp : parent = some limit) : ∃ time, child = some time ∧ time ≤ limit := by
  subst hp
  cases child with
  | none => simp [requireExpiry, ensure_ok] at h
  | some time => exact ⟨time, rfl, by simpa [requireExpiry, ensure_ok] using h⟩

structure PolicyNarrowed (parent child : GrantPolicy) : Prop where
  budget_ref : child.budget_ref = parent.budget_ref
  pool_id : child.pool_id = parent.pool_id
  cost_per_claim : parent.cost_per_claim ≤ child.cost_per_claim
  max_active_claims : ∀ cap, parent.max_active_claims = some cap →
    ∃ maximum, child.max_active_claims = some maximum ∧ maximum ≤ cap

theorem requirePolicy_ok {parent child : GrantPolicy} (h : requirePolicy parent child = .ok u) :
    PolicyNarrowed parent child := by
  simp only [requirePolicy, bind_ok, ensure_ok, decide_eq_true_eq] at h
  obtain ⟨-, hbudget, -, hpool, -, hcost, h⟩ := h
  refine ⟨hbudget, hpool, hcost, fun cap hcap => ?_⟩
  rw [hcap] at h
  cases hmax : child.max_active_claims with
  | none => rw [hmax] at h; cases h
  | some maximum =>
    rw [hmax] at h
    exact ⟨maximum, rfl, by simpa [ensure_ok] using h⟩

structure DelegationNarrowed (parent : Grant) (child : Authority) : Prop where
  delegates : parent.delegation.allowed = true
  delegated : ∀ action ∈ child.allowed_actions, action ∈ parent.delegation.actions
  delegable : child.delegation.allowed = true → ∀ action ∈ child.delegation.actions,
    action ∈ parent.delegation.actions ∧ action ∈ child.allowed_actions
  maximum_depth : child.delegation.allowed = true →
    (child.delegation.maximum_depth : Int) ≤ parent.delegation.maximum_depth - parent.depth

theorem requireDelegation_ok (h : requireDelegation parent parent child = .ok u) :
    DelegationNarrowed parent child := by
  simp only [requireDelegation, bind_ok, ensure_ok, subset_actions_ok] at h
  obtain ⟨-, -, -, hallowed, -, hactions, h⟩ := h
  refine ⟨hallowed, hactions, fun hchild => ?_, fun hchild => ?_⟩
  · simp only [hchild, if_true, bind_ok, subset_actions_ok] at h
    obtain ⟨-, hdelegable, -⟩ := h
    intro action ha
    simpa using hdelegable action ha
  · simp only [hchild, if_true, bind_ok, ensure_ok] at h
    obtain ⟨-, -, hdepth⟩ := h
    simp only [Bool.true_and, Bool.not_eq_true', decide_eq_false_iff_not, not_lt] at hdepth
    omega

/-- What a child that passed the narrowing check is against its parent. -/
structure Narrowed (parent : Grant) (child : Authority) : Prop where
  allowed_actions : ∀ action ∈ child.allowed_actions, action ∈ parent.allowed_actions
  inputs : ∀ item ∈ child.inputs, item ∈ parent.inputs
  required_outcomes : ∀ item ∈ child.required_outcomes, item ∈ parent.required_outcomes
  model_refs : ∀ item ∈ child.model_refs, item ∈ parent.model_refs
  execution_kind_refs : ∀ item ∈ child.execution_kind_refs, item ∈ parent.execution_kind_refs
  tool_refs : ∀ item ∈ child.tool_refs, item ∈ parent.tool_refs
  data_destinations : ∀ item ∈ child.data_destinations, item ∈ parent.data_destinations
  scope : containsScope parent.scope child.scope = true
  write_scope : containsScope parent.write_scope child.write_scope = true
  role_refs : ∀ alias_id reference, child.role_refs.get? alias_id = some reference →
    parent.role_refs.get? alias_id = some reference
  artifact : ∀ artifact, child.artifact = some artifact →
    ∃ permitted, parent.artifact = some permitted ∧ artifact.rank ≤ permitted.rank
  policy : PolicyNarrowed parent.resource_policy child.resource_policy
  expires_at : ∀ limit, parent.expires_at = some limit → ∃ time, child.expires_at = some time ∧ time ≤ limit
  delegation : DelegationNarrowed parent child

theorem requireSubset_ok (h : requireSubset parent child = .ok u) : Narrowed parent child := by
  simp only [requireSubset, Option.getD_none, bind_ok, ensure_ok] at h
  obtain ⟨_, hactions, _, hinputs, _, houtcomes, _, hmodels, _, hkinds, _, htools, _, hdata, -, hscope,
    -, hwrite, _, hroles, -, -, _, hartifact, _, hpolicy, _, hexpiry, hdelegation⟩ := h
  refine ⟨subset_actions_ok.mp hactions, subset_ok.mp hinputs, subset_ok.mp houtcomes,
    subset_ok.mp hmodels, subset_ok.mp hkinds, subset_ok.mp htools, subset_ok.mp hdata, hscope, hwrite,
    ?_, fun _ => requireArtifact_ok hartifact, requirePolicy_ok hpolicy,
    fun _ => requireExpiry_ok hexpiry, requireDelegation_ok hdelegation⟩
  intro alias_id reference hget
  obtain ⟨_, hrole, -⟩ := each_ok hroles _ (get?_eq_some.mp hget)
  exact requireRoleRef_ok.mp hrole

end Karajan.Scheduling
