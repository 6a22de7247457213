import Karajan.Scheduling.GrantLaws
import Karajan.Scheduling.TaskLaws

/-!
# The grants of a run

A request issues one grant, derives one from a live parent, or revokes some.
What a grant permits and where it stands in its chain is never rewritten:
`GrantSound` is what every stored grant is, in every reachable store.
-/

namespace Karajan.Scheduling

open Check

def Db.grants (db : Db) (key : RunKey) : Dict String Grant := (db.runs key).scheduler_grants

inductive GrantMove (P : Platform) (key : RunKey) (tables : RunTables) :
    Request → Dict String Grant → Prop
  | kept : GrantMove P key tables request tables.scheduler_grants
  | issued (parsed : GrantPayload) (run : RunRecord)
      (valid : validateGrantPayload P payload = .ok parsed)
      (fresh : tables.scheduler_grants.get? parsed.grant_id = none) :
      GrantMove P key tables (.issueGrant key payload now)
        (tables.scheduler_grants.put parsed.grant_id (rootDocument P key run parsed now))
  | delegated (delegated : Delegated P tables payload clock run parent root parsed) :
      GrantMove P key tables (.delegateGrant key payload clock)
        (tables.scheduler_grants.put parsed.grant_id (childDocument P key parent parsed (clock 1)))
  | revoked (named : tables.scheduler_grants.get? grant_id = some grant) :
      GrantMove P key tables (.revokeGrant key grant_id reason now)
        (revokedGrants P tables.scheduler_grants grant_id reason now)

section
variable {db db' : Db}

theorem GrantMove.of_setRun (hr : db'.runs = (db.setRun key tables).runs)
    (h : GrantMove P key (db.runs key) request tables.scheduler_grants) :
    GrantMove P key' (db.runs key') request (db'.grants key') := by
  rw [Db.grants, hr]
  by_cases hkey : key' = key
  · rw [hkey, Db.setRun_runs_self]
    exact h
  · rw [Db.setRun_runs_of_ne hkey]
    exact .kept

theorem GrantMove.frame (hr : db'.runs = (db.setRun key tables).runs)
    (h : tables.scheduler_grants = (db.runs key).scheduler_grants) :
    GrantMove P key' (db.runs key') request (db'.grants key') := by
  refine .of_setRun hr ?_
  rw [h]
  exact .kept

theorem Effect.grants (h : Effect P store request db') (key : RunKey) :
    GrantMove P key (store.db.runs key) request (db'.grants key) := by
  cases h with
  | unchanged | resources | credentialIssued => exact .kept
  | runCreated | expansionCreated | refusalRecorded | claimed | reported => exact .frame rfl rfl
  | grantIssued parsed run valid fresh => exact .of_setRun rfl (.issued parsed run valid fresh)
  | grantDelegated delegated => exact .of_setRun rfl (.delegated delegated)
  | grantRevoked named _ => exact .of_setRun rfl (.revoked named)
  | decided submission _ _ _ _ tables _ decided =>
    exact .frame rfl (by rw [(commitDecision_ok decided.committed).after])

end

-- What a grant never changes

def Grant.terms (grant : Grant) : Grant :=
  { grant with revoked_at := none, revoked_reason := none, revoked_by := none, digest := "" }

section
variable {id grant_id : String}

theorem read_terms (f : Grant → α) (hf : ∀ grant, f grant.terms = f grant)
    (h : grant'.terms = grant.terms) : f grant' = f grant := by
  rw [← hf grant', h, hf]

theorem Narrowed.of_terms (hn : Narrowed parent child)
    (h : grant.terms = parent.terms) : Narrowed grant child := by
  have hterms : Narrowed parent.terms child := { hn with delegation := { hn.delegation with } }
  rw [← h] at hterms
  exact { hterms with delegation := { hterms.delegation with } }

structure Derived (parent grant : Grant) : Prop where
  narrowed : Narrowed parent grant.toAuthority
  depth : grant.depth = parent.depth + 1
  root : grant.root_grant_id = parent.root_grant_id

theorem Derived.of_terms (h : Derived parent grant)
    (hp : parent'.terms = parent.terms) (hg : grant'.terms = grant.terms) : Derived parent' grant' where
  narrowed := by
    rw [read_terms Grant.toAuthority (fun _ => rfl) hg]
    exact h.narrowed.of_terms hp
  depth := by
    rw [read_terms Grant.depth (fun _ => rfl) hg, read_terms Grant.depth (fun _ => rfl) hp]
    exact h.depth
  root := by
    rw [read_terms Grant.root_grant_id (fun _ => rfl) hg, read_terms Grant.root_grant_id (fun _ => rfl) hp]
    exact h.root

def GrantsKept (grants grants' : Dict String Grant) : Prop :=
  ∀ id grant, grants.get? id = some grant → ∃ grant', grants'.get? id = some grant' ∧ grant'.terms = grant.terms

theorem GrantsKept.put (h : grants.get? id = none) : GrantsKept grants (grants.put id grant) := by
  intro id' grant' hget
  exact ⟨grant', Dict.get?_put_new h hget, rfl⟩

theorem get?_revokedGrants : (revokedGrants P grants grant_id reason now).get? id =
    (grants.get? id).map fun grant => if (affectedBy grants grant_id).contains id && grant.live then
        grant.revoke P grant_id reason now else grant := by
  rw [revokedGrants, Dict.get?_mapValues]

theorem GrantsKept.revoked : GrantsKept grants (revokedGrants P grants grant_id reason now) := by
  intro id grant hget
  rw [get?_revokedGrants, hget]
  refine ⟨_, rfl, ?_⟩
  beta_reduce
  split <;> rfl

-- What every stored grant is

/-- A stored grant, with its parent and its root stored beside it. -/
structure GrantSound (P : Platform) (grants : Dict String Grant) (id : String) (grant : Grant) :
    Prop where
  named : grant.grant_id = id
  intact : grant.digest = grantDigest P grant
  bounded : grant.delegation.allowed = true → 1 ≤ grant.delegation.maximum_depth
  top : grant.parent_grant_id = none → grant.depth = 0 ∧ grant.root_grant_id = id
  child : ∀ parent_id, grant.parent_grant_id = some parent_id →
    ∃ parent, grants.get? parent_id = some parent ∧ Derived parent grant
  reach : grant.depth ≠ 0 → ∃ root, grants.get? grant.root_grant_id = some root ∧
      grant.depth ≤ root.delegation.maximum_depth

def GrantsSound (P : Platform) (grants : Dict String Grant) : Prop :=
  ∀ id grant, grants.get? id = some grant → GrantSound P grants id grant

theorem GrantSound.mono (h : GrantSound P grants id grant) (hkept : GrantsKept grants grants')
    (hterms : grant'.terms = grant.terms) (hintact : grant'.digest = grantDigest P grant') :
    GrantSound P grants' id grant' := by
  have hid : grant'.grant_id = grant.grant_id := read_terms Grant.grant_id (fun _ => rfl) hterms
  have hdelegation : grant'.delegation = grant.delegation :=
    read_terms (fun g => g.delegation) (fun _ => rfl) hterms
  have hparent : grant'.parent_grant_id = grant.parent_grant_id :=
    read_terms Grant.parent_grant_id (fun _ => rfl) hterms
  have hroot : grant'.root_grant_id = grant.root_grant_id := read_terms Grant.root_grant_id (fun _ => rfl) hterms
  have hdepth : grant'.depth = grant.depth := read_terms Grant.depth (fun _ => rfl) hterms
  refine ⟨hid.trans h.named, hintact, ?_, ?_, ?_, ?_⟩
  · rw [hdelegation]
    exact h.bounded
  · rw [hparent, hdepth, hroot]
    exact h.top
  · rw [hparent]
    intro parent_id hp
    obtain ⟨parent, hget, hderived⟩ := h.child parent_id hp
    obtain ⟨parent', hget', hsame⟩ := hkept parent_id parent hget
    exact ⟨parent', hget', hderived.of_terms hsame hterms⟩
  · rw [hdepth, hroot]
    intro hne
    obtain ⟨root, hget, hle⟩ := h.reach hne
    obtain ⟨root', hget', hsame⟩ := hkept _ root hget
    have hbound : root'.delegation = root.delegation := read_terms (fun g => g.delegation) (fun _ => rfl) hsame
    exact ⟨root', hget', by rwa [hbound]⟩

theorem GrantsSound.put (h : GrantsSound P grants) (hfresh : grants.get? id = none)
    (hnew : GrantSound P grants id grant) : GrantsSound P (grants.put id grant) := by
  intro id' grant' hget
  rcases Dict.of_put hget with ⟨heq, rfl⟩ | ⟨-, hget⟩
  · rw [← heq]
    exact hnew.mono (.put hfresh) rfl hnew.intact
  · have hold := h id' grant' hget
    exact hold.mono (.put hfresh) rfl hold.intact

theorem GrantsSound.revoked (h : GrantsSound P grants) :
    GrantsSound P (revokedGrants P grants grant_id reason now) := by
  intro id grant hget
  rw [get?_revokedGrants, Option.map_eq_some_iff] at hget
  obtain ⟨old, hold, rfl⟩ := hget
  have hsound := h id old hold
  split
  · exact hsound.mono .revoked rfl rfl
  · exact hsound.mono .revoked rfl hsound.intact

theorem grantRow_ok : grantRow P tables id = .ok grant ↔
    tables.scheduler_grants.get? id = some grant ∧ grant.digest = grantDigest P grant := by
  simp only [grantRow, grantFrom, bind_ok, need_ok, ensure_ok, pure_ok, decide_eq_true_eq]
  constructor
  · rintro ⟨_, hget, -, hintact, rfl⟩
    exact ⟨hget, hintact⟩
  · rintro ⟨hget, hintact⟩
    exact ⟨grant, hget, (), hintact, rfl⟩

theorem rootDocument_sound (h : validateGrantPayload P value = .ok parsed) :
    GrantSound P grants parsed.grant_id (rootDocument P key run parsed now) where
  named := rfl
  intact := rfl
  bounded := (validateGrantPayload_ok h).delegation
  top _ := ⟨rfl, rfl⟩
  child _ hp := by cases hp
  reach hne := absurd rfl hne

theorem requireDelegationDepth_ok (hallowed : parent.delegation.allowed = true)
    (h : requireDelegationDepth root parent (parent.depth + 1) = .ok u) :
    parent.depth + 1 ≤ root.delegation.maximum_depth := by
  simp only [requireDelegationDepth, List.foldl_nil, hallowed, if_true, bind_ok, ensure_ok,
    decide_eq_true_eq] at h
  obtain ⟨-, hsteps, -⟩ := h
  push_cast at hsteps
  omega

theorem Delegated.sound (h : Delegated P tables payload clock run parent root parsed)
    (hs : GrantsSound P tables.scheduler_grants) : GrantSound P tables.scheduler_grants parsed.grant_id
      (childDocument P key parent parsed (clock 1)) := by
  obtain ⟨parent_id, body, -, hparsed, hparent⟩ := h.parts
  have hget := (grantRow_ok.mp hparent).1
  have hroot := (grantRow_ok.mp h.of_root).1
  have hnarrowed := requireSubset_ok h.narrowed
  have hid := (hs parent_id parent hget).named
  refine ⟨rfl, rfl, (validateGrantPayload_ok hparsed).delegation, (fun hp => by cases hp), ?_, ?_⟩
  · intro name hp
    have hname : parent.grant_id = name := Option.some.inj hp
    rw [← hname, hid]
    exact ⟨parent, hget, hnarrowed, rfl, rfl⟩
  · intro _
    exact ⟨root, hroot, requireDelegationDepth_ok hnarrowed.delegation.delegates h.bounded⟩

theorem GrantMove.sound
    (h : GrantMove P key tables request grants') (hs : GrantsSound P tables.scheduler_grants) :
    GrantsSound P grants' := by
  cases h with
  | kept => exact hs
  | issued parsed run valid fresh => exact hs.put fresh (rootDocument_sound valid)
  | delegated delegated => exact hs.put delegated.fresh (delegated.sound hs)
  | revoked => exact hs.revoked

theorem GrantMove.kept_terms (h : GrantMove P key tables request grants') :
    GrantsKept tables.scheduler_grants grants' := by
  cases h with
  | kept => exact fun _ grant hget => ⟨grant, hget, rfl⟩
  | issued _ _ _ fresh => exact .put fresh
  | delegated delegated => exact .put delegated.fresh
  | revoked => exact .revoked

theorem grants_sound (h : (schedulingStore P).Reach ok store) (key : RunKey) :
    GrantsSound P (store.db.grants key) := by
  refine h.invariant (I := fun store => GrantsSound P (store.db.grants key)) ?_ ?_
  · rintro _ ⟨projects, rfl⟩ id grant hget
    cases hget
  · intro store request hs _
    exact ((serve_effect store request).grants key).sound hs

end

end Karajan.Scheduling

-- Delegation chains

namespace Karajan.Scheduling

open Check

abbrev ParentOf (grants : Dict String Grant) : Grant → Grant → Prop :=
  Forest.ParentOf Grant.parent_grant_id grants

abbrev Ancestor (grants : Dict String Grant) : Grant → Grant → Prop :=
  Forest.Ancestor Grant.parent_grant_id grants

def trailingWildcards (scope : List String) : Prop := ∀ pattern ∈ scope, '*' ∉ (patternRoot pattern).toList

/-- Every inner pattern stands, segment by segment, at or below an outer one. -/
def pathsWithin (outer inner : List String) : Prop := ∀ pattern ∈ inner, ∃ outer_pattern ∈ outer,
    segments (patternRoot outer_pattern) <+: segments (patternRoot pattern)

variable {id : String}

-- Scopes along a chain

theorem pathsWithin_self (scope : List String) : pathsWithin scope scope :=
  fun pattern hp => ⟨pattern, hp, List.prefix_refl _⟩

/-- The check of one step says nothing of the root of a pattern `a/**`, which
`a/**/**` covers. A scope without such patterns contains the roots of what is
derived from it, however many steps further down. -/
theorem pathsWithin.narrow {inner : List String} (h : pathsWithin outer middle)
    (htrailing : trailingWildcards outer) (hc : containsScope middle inner = true) : pathsWithin outer inner := by
  intro pattern hp
  obtain ⟨middle_pattern, hmiddle, hunder⟩ := containsScope_iff.mp hc pattern hp
  obtain ⟨outer_pattern, houter, hprefix⟩ := h middle_pattern hmiddle
  have hsegments : segments (patternRoot outer_pattern) <+: segments pattern := hprefix.trans hunder.segments
  refine ⟨outer_pattern, houter, ?_⟩
  cases hw : endsWith pattern "/**" with
  | false => rwa [patternRoot_plain hw]
  | true =>
    have hpattern := patternRoot_toList hw
    rw [segments, segments, hpattern] at hsegments
    rcases Paths.prefix_segments (by simp) hsegments with hroot | hroot
    · exact hroot
    · refine absurd ?_ (htrailing outer_pattern houter)
      rw [hroot]
      simp

-- Dimensions along a chain

/-- What an authority keeps of one it derives from, in whatever many steps. -/
structure Inherited (outer inner : Authority) : Prop where
  allowed_actions : ∀ action ∈ inner.allowed_actions, action ∈ outer.allowed_actions
  inputs : ∀ item ∈ inner.inputs, item ∈ outer.inputs
  required_outcomes : ∀ item ∈ inner.required_outcomes, item ∈ outer.required_outcomes
  model_refs : ∀ item ∈ inner.model_refs, item ∈ outer.model_refs
  tool_refs : ∀ item ∈ inner.tool_refs, item ∈ outer.tool_refs
  data_destinations : ∀ item ∈ inner.data_destinations, item ∈ outer.data_destinations
  role_refs : ∀ alias_id reference, inner.role_refs.get? alias_id = some reference →
    outer.role_refs.get? alias_id = some reference
  artifact : ∀ artifact, inner.artifact = some artifact →
    ∃ permitted, outer.artifact = some permitted ∧ artifact.rank ≤ permitted.rank
  policy : PolicyNarrowed outer.resource_policy inner.resource_policy
  expires_at : ∀ limit, outer.expires_at = some limit → ∃ time, inner.expires_at = some time ∧ time ≤ limit
  scope : trailingWildcards outer.scope → pathsWithin outer.scope inner.scope
  write_scope : trailingWildcards outer.write_scope → pathsWithin outer.write_scope inner.write_scope

theorem PolicyNarrowed.refl (policy : GrantPolicy) : PolicyNarrowed policy policy :=
  ⟨rfl, rfl, Nat.le_refl _, fun cap hcap => ⟨cap, hcap, Nat.le_refl _⟩⟩

theorem PolicyNarrowed.trans {inner : GrantPolicy} (h : PolicyNarrowed outer middle)
    (h' : PolicyNarrowed middle inner) : PolicyNarrowed outer inner where
  budget_ref := h'.budget_ref.trans h.budget_ref
  pool_id := h'.pool_id.trans h.pool_id
  cost_per_claim := h.cost_per_claim.trans h'.cost_per_claim
  max_active_claims cap hcap := by
    obtain ⟨maximum, hmax, hle⟩ := h.max_active_claims cap hcap
    obtain ⟨least, hleast, hle'⟩ := h'.max_active_claims maximum hmax
    exact ⟨least, hleast, hle'.trans hle⟩

theorem Inherited.refl (authority : Authority) : Inherited authority authority where
  allowed_actions _ ha := ha
  inputs _ hi := hi
  required_outcomes _ hi := hi
  model_refs _ hi := hi
  tool_refs _ hi := hi
  data_destinations _ hi := hi
  role_refs _ _ hget := hget
  artifact artifact ha := ⟨artifact, ha, Nat.le_refl _⟩
  policy := .refl _
  expires_at limit hl := ⟨limit, hl, Rat.le_refl⟩
  scope _ := pathsWithin_self _
  write_scope _ := pathsWithin_self _

theorem Inherited.narrow (h : Inherited outer parent.toAuthority)
    (hn : Narrowed parent child) : Inherited outer child where
  allowed_actions action ha := h.allowed_actions action (hn.allowed_actions action ha)
  inputs item hi := h.inputs item (hn.inputs item hi)
  required_outcomes item hi := h.required_outcomes item (hn.required_outcomes item hi)
  model_refs item hi := h.model_refs item (hn.model_refs item hi)
  tool_refs item hi := h.tool_refs item (hn.tool_refs item hi)
  data_destinations item hi := h.data_destinations item (hn.data_destinations item hi)
  role_refs alias_id reference hget := h.role_refs alias_id reference (hn.role_refs alias_id reference hget)
  artifact artifact ha := by
    obtain ⟨middle, hmiddle, hle⟩ := hn.artifact artifact ha
    obtain ⟨permitted, hpermitted, hle'⟩ := h.artifact middle hmiddle
    exact ⟨permitted, hpermitted, hle.trans hle'⟩
  policy := h.policy.trans hn.policy
  expires_at limit hl := by
    obtain ⟨middle, hmiddle, hle⟩ := h.expires_at limit hl
    obtain ⟨time, htime, hle'⟩ := hn.expires_at middle hmiddle
    exact ⟨time, htime, Rat.le_trans hle' hle⟩
  scope htrailing := (h.scope htrailing).narrow htrailing hn.scope
  write_scope htrailing := (h.write_scope htrailing).narrow htrailing hn.write_scope

-- Chains of stored grants

theorem derived_of_parent (hs : GrantsSound P grants) (hg : grants.get? id = some grant)
    (h : ParentOf grants grant parent) : Derived parent grant := by
  obtain ⟨parent_id, hparent, hget⟩ := h
  obtain ⟨stored, hstored, hderived⟩ := (hs id grant hg).child parent_id hparent
  rw [hget] at hstored; cases hstored
  exact hderived

theorem root_of_depth (hs : GrantsSound P grants) (hg : grants.get? id = some ancestor)
    (hdepth : ancestor.depth = 0) : ancestor.root_grant_id = id := by
  cases hparent : ancestor.parent_grant_id with
  | none => exact ((hs id ancestor hg).top hparent).2
  | some parent_id =>
    obtain ⟨parent, -, hderived⟩ := (hs id ancestor hg).child parent_id hparent
    rw [hderived.depth] at hdepth
    cases hdepth

section
variable (h : Ancestor grants grant ancestor) (hs : GrantsSound P grants)
  (hg : grants.get? id = some grant)
include h hs hg

theorem Ancestor.inherited : Inherited ancestor.toAuthority grant.toAuthority ∧
      ∀ action ∈ grant.allowed_actions, action ∈ ancestor.delegation.actions := by
  refine h.induct (motive := fun grant => Inherited ancestor.toAuthority grant.toAuthority ∧
    ∀ action ∈ grant.allowed_actions, action ∈ ancestor.delegation.actions) hg ?_ ?_
  · intro id grant hget hp
    have hn := (derived_of_parent hs hget hp).narrowed
    exact ⟨(Inherited.refl _).narrow hn, hn.delegation.delegated⟩
  · intro id grant middle hget hp ⟨hinherited, hactions⟩
    have hn := (derived_of_parent hs hget hp).narrowed
    exact ⟨hinherited.narrow hn, fun action ha => hactions action (hn.allowed_actions action ha)⟩

theorem Ancestor.root : ancestor.root_grant_id = grant.root_grant_id := by
  refine h.inherits (I := fun g => g.root_grant_id = grant.root_grant_id) hg ?_ rfl
  intro id row middle hget hp hroot
  exact (derived_of_parent hs hget hp).root.symm.trans hroot

theorem Ancestor.depth_lt : ancestor.depth < grant.depth := by
  refine h.induct (motive := fun grant => ancestor.depth < grant.depth) hg ?_ ?_
  · intro id grant hget hp
    rw [(derived_of_parent hs hget hp).depth]
    omega
  · intro id grant middle hget hp hlt
    rw [(derived_of_parent hs hget hp).depth]
    omega

theorem Ancestor.delegates : ancestor.delegation.allowed = true :=
  h.induct (motive := fun _ => ancestor.delegation.allowed = true) hg
    (fun _ _ hget hp => (derived_of_parent hs hget hp).narrowed.delegation.delegates) fun _ _ _ _ _ ih => ih

/-- Below a grant that is itself derived, each step down takes one off the
bound: the induction is on the chain, from the descendant up. -/
theorem Ancestor.depth_le_derived (hderived : 1 ≤ ancestor.depth) :
    grant.depth ≤ ancestor.depth + ancestor.delegation.maximum_depth := by
  induction h with
  | single hp =>
    have hd := derived_of_parent hs hg hp
    obtain ⟨parent_id, -, hget⟩ := hp
    have hbound := (hs parent_id _ hget).bounded hd.narrowed.delegation.delegates
    rw [hd.depth]
    omega
  | tail hchain hp ih =>
    have hchain : Ancestor grants _ _ := hchain
    obtain ⟨middle_id, hmiddle⟩ := hchain.stored
    have hd := derived_of_parent hs hmiddle hp
    have hstep := hd.narrowed.delegation.maximum_depth (hchain.delegates hs hg)
    have hrest := ih (by rw [hd.depth]; omega)
    rw [hd.depth] at hrest
    omega

theorem Ancestor.depth_le : grant.depth ≤ ancestor.depth + ancestor.delegation.maximum_depth := by
  by_cases hdepth : ancestor.depth = 0
  · obtain ⟨ancestor_id, hancestor⟩ := h.stored
    have hlt := h.depth_lt hs hg
    obtain ⟨root, hroot, hle⟩ := (hs id grant hg).reach (by omega)
    rw [← h.root hs hg, root_of_depth hs hancestor hdepth, hancestor] at hroot
    cases hroot
    omega
  · exact h.depth_le_derived hs hg (by omega)

end

structure Within (ancestor grant : Grant) : Prop extends
    Inherited ancestor.toAuthority grant.toAuthority where
  delegated : ∀ action ∈ grant.allowed_actions, action ∈ ancestor.delegation.actions
  depth : ancestor.depth < grant.depth ∧
    grant.depth - ancestor.depth ≤ ancestor.delegation.maximum_depth

/-- In every reachable store every grant is within each of its ancestors. -/
theorem grant_within (h : (schedulingStore P).Reach System.free store) (key : RunKey)
    (hg : (store.db.grants key).get? id = some grant)
    (ha : Ancestor (store.db.grants key) grant ancestor) : Within ancestor grant := by
  have hs := grants_sound h key
  obtain ⟨hinherited, hactions⟩ := ha.inherited hs hg
  have hbound := ha.depth_le hs hg
  exact { hinherited with
    delegated := hactions
    depth := ⟨ha.depth_lt hs hg, by omega⟩ }

def Sample.parentOf (store : Store) (id : String) : Option String :=
  ((store.db.grants Sample.key).get? id).bind fun grant => grant.parent_grant_id

open Sample in
/-- The grant derived in the sample run is within the one it derives from. -/
theorem grant_within_derived :
    ∃ grant parent, ((after delegated).db.grants key).get? "h" = some grant ∧
      ((after delegated).db.grants key).get? "g" = some parent ∧
      Within parent grant := by
  have hparent : parentOf (after delegated) "h" = some "g" := by decide +kernel
  obtain ⟨grant, hgrant, hlink⟩ := Option.bind_eq_some_iff.mp hparent
  have hs := grants_sound (after_reach delegated) key
  obtain ⟨parent, hget, -⟩ := (hs "h" grant hgrant).child "g" hlink
  exact ⟨grant, parent, hgrant, hget,
    grant_within (after_reach delegated) key hgrant (.single ⟨"g", hlink, hget⟩)⟩

end Karajan.Scheduling
