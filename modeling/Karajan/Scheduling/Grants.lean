import Karajan.Lib.Dict
import Karajan.Scheduling.Values

/-!
# Scheduler grants

A grant is explicit, bounded and strictly narrowing authority. A child narrows
in every declared dimension; delegation is off unless it was enabled, and it is
bounded; a grant is effective only if it and every ancestor is live.
-/

namespace Karajan.Scheduling

open Check
open Json (ofTexts ofText? ofTime?)

inductive Action
  | expandGraph
  | bindRole
  | setDependencies
  | setPriority
  | requestDispatch
  | seal
  deriving DecidableEq

def Action.text : Action → String
  | .expandGraph => "expand_graph"
  | .bindRole => "bind_role"
  | .setDependencies => "set_dependencies"
  | .setPriority => "set_priority"
  | .requestDispatch => "request_dispatch"
  | .seal => "seal"

def grantableActions : List Action :=
  [.expandGraph, .bindRole, .setDependencies, .setPriority, .requestDispatch, .seal]

def Action.ofText? (text : String) : Option Action := grantableActions.find? fun action => action.text = text

open Action (text ofText?)

theorem Action.text_injective : Function.Injective text := by
  intro a b h
  cases a <;> cases b <;> first | rfl | exact absurd h (by decide)

/-- The delivery targets, in ascending order of external reach. -/
inductive Artifact
  | report
  | patch
  | pr

def Artifact.text : Artifact → String
  | .report => "report"
  | .patch => "patch"
  | .pr => "pr"

def Artifact.ofText? (text : String) : Option Artifact :=
  [Artifact.report, .patch, .pr].find? fun artifact => artifact.text = text

def Artifact.rank : Artifact → Nat
  | .report => 0
  | .patch => 1
  | .pr => 2

def grantFields : List String :=
  ["grant_id", "parent_grant_id", "subject_ref", "role_instance", "allowed_actions", "inputs",
   "scope", "write_scope", "required_outcomes", "role_refs", "model_refs", "execution_kind_refs",
   "tool_refs", "data_destinations", "artifact", "resource_policy", "delegation", "expires_at"]

def grantResourcePolicyFields : List String := ["budget_ref", "pool_id", "cost_per_claim", "max_active_claims"]

def delegationFields : List String := ["allowed", "maximum_depth", "actions"]

structure GrantPolicy where
  (budget_ref pool_id : String)
  cost_per_claim : Nat
  max_active_claims : Option Nat

structure DelegationPolicy where
  allowed : Bool
  maximum_depth : Nat
  actions : List Action

def GrantPolicy.body (policy : GrantPolicy) : Json :=
  .object
    [("budget_ref", .str policy.budget_ref),
     ("pool_id", .str policy.pool_id),
     ("cost_per_claim", .int policy.cost_per_claim),
     ("max_active_claims", Json.ofNat? policy.max_active_claims)]

def DelegationPolicy.body (delegation : DelegationPolicy) : Json :=
  .object
    [("allowed", .bool delegation.allowed),
     ("maximum_depth", .int delegation.maximum_depth),
     ("actions", ofTexts (delegation.actions.map text))]

def DelegationPolicy.none : DelegationPolicy := ⟨false, 0, []⟩

/-- The dimensions of authority a grant and a payload for one share. -/
structure Authority where
  allowed_actions : List Action
  (inputs scope write_scope required_outcomes : List String)
  role_refs : Dict String String
  (model_refs execution_kind_refs tool_refs data_destinations : List String)
  artifact : Option Artifact
  resource_policy : GrantPolicy
  delegation : DelegationPolicy
  expires_at : Option Rat

structure GrantPayload extends Authority where
  (grant_id subject_ref role_instance : String)

structure Grant extends Authority where
  grant_id : String
  revision : Nat
  (run_id project_id issuer_ref subject_ref role_instance : String)
  parent_grant_id : Option String
  (root_grant_id root_authorization_id : String)
  (depth term : Nat)
  valid_from : Rat
  revoked_at : Option Rat
  (revoked_reason revoked_by : Option String)
  digest : String

def Grant.live (grant : Grant) : Bool := grant.revoked_at.isNone

def Grant.body (grant : Grant) : Json :=
  .object
    [("schema_version", .str "karajan.scheduler-grant.v1"),
     ("grant_id", .str grant.grant_id),
     ("run_id", .str grant.run_id),
     ("project_id", .str grant.project_id),
     ("revision", .int grant.revision),
     ("issuer_ref", .str grant.issuer_ref),
     ("subject_ref", .str grant.subject_ref),
     ("role_instance", .str grant.role_instance),
     ("parent_grant_id", ofText? grant.parent_grant_id),
     ("root_grant_id", .str grant.root_grant_id),
     ("root_authorization_id", .str grant.root_authorization_id),
     ("depth", .int grant.depth),
     ("term", .int grant.term),
     ("valid_from", .float grant.valid_from),
     ("expires_at", ofTime? grant.expires_at),
     ("allowed_actions", ofTexts (grant.allowed_actions.map text)),
     ("inputs", ofTexts grant.inputs),
     ("scope", ofTexts grant.scope),
     ("write_scope", ofTexts grant.write_scope),
     ("required_outcomes", ofTexts grant.required_outcomes),
     ("role_refs", .object (grant.role_refs.entries.map fun e => (e.1, .str e.2))),
     ("model_refs", ofTexts grant.model_refs),
     ("execution_kind_refs", ofTexts grant.execution_kind_refs),
     ("tool_refs", ofTexts grant.tool_refs),
     ("data_destinations", ofTexts grant.data_destinations),
     ("artifact", ofText? (grant.artifact.map Artifact.text)),
     ("resource_policy", grant.resource_policy.body),
     ("delegation", grant.delegation.body),
     ("revoked_at", ofTime? grant.revoked_at),
     ("revoked_reason", ofText? grant.revoked_reason),
     ("revoked_by", ofText? grant.revoked_by),
     ("user_authorization_id", .str grant.root_authorization_id),
     ("accepted_under", .str (if grant.parent_grant_id.isNone then "user_authorization" else "parent_grant")),
     ("model_calls", .int 0)]

def grantDigest (P : Platform) (grant : Grant) : String := P.contentDigest grant.body

def Grant.reseal (P : Platform) (grant : Grant) : Grant := { grant with digest := grantDigest P grant }

def grantExpired (grant : Grant) (now : Rat) : Bool :=
  match grant.expires_at with
  | some expires_at => expires_at ≤ now
  | none => false

-- Reading a grant-issuing command

def textList (value : Json) (code : Code) (pointer : String) (limit : Nat := 256) :
    Chk (List String) := do
  let items ← need (texts? value) (refusal code pointer "a list of identifiers is required")
  ensure (items.length ≤ limit)
    (refusal code pointer s!"at most {limit} entries are accepted")
  ensure items.Nodup (refusal code pointer "each entry appears once")
  return items

/-- The declared actions a list of texts names, in order, or one diagnostic for
each text that names none. -/
def declaredActions (texts : List String) (pointer detail : String) : Chk (List Action) := do
  let undeclared := notIn (grantableActions.map text) texts
  ensure (undeclared.length == 0)
    { code := .grantActionInvalid,
      diagnostics := undeclared.map fun name =>
        located .grantActionInvalid s!"{pointer}/id={name}" detail }
  return (sorted texts).filterMap ofText?

def validateResourcePolicy (value : Json) (pointer : String := "grant#/resource_policy") :
    Chk GrantPolicy :=
  match value with
  | .null =>
    .error (refusal .grantInvalid pointer "a grant names the shared budget its claims draw on")
  | .object fields => do
    let unknown := outside fields grantResourcePolicyFields
    ensure (unknown.length == 0) (unknownFields .grantInvalid pointer unknown)
    let budget_ref ← boundedReference (field fields "budget_ref") .grantInvalid s!"{pointer}/budget_ref"
    let pool_id ← boundedReference (field fields "pool_id") .grantInvalid s!"{pointer}/pool_id"
    let cost_per_claim ←
      positiveCount (field fields "cost_per_claim") .grantInvalid s!"{pointer}/cost_per_claim"
    let max_active_claims ←
      optional (fun cap => nonNegativeCount cap .grantInvalid s!"{pointer}/max_active_claims")
        (field fields "max_active_claims")
    return { budget_ref, pool_id, cost_per_claim, max_active_claims }
  | _ => .error (refusal .grantInvalid pointer "expected an object")

def validateDelegation (value : Json) (pointer : String := "grant#/delegation") :
    Chk DelegationPolicy :=
  match value with
  | .null => .ok .none
  | .object fields => do
    let unknown := outside fields delegationFields
    ensure (unknown.length == 0) (unknownFields .grantInvalid pointer unknown)
    match field fields "allowed" with
    | .bool true => do
      let maximum_depth ←
        nonNegativeCount (field fields "maximum_depth") .grantInvalid s!"{pointer}/maximum_depth"
      ensure (1 ≤ maximum_depth)
        (refusal .grantInvalid s!"{pointer}/maximum_depth"
          "an enabled delegation needs an explicit bound of at least one")
      let texts ← textList (fieldD fields "actions" (.list [])) .grantInvalid s!"{pointer}/actions"
      let actions ← declaredActions texts s!"{pointer}/actions"
        "a delegable action is one of the declared scheduling actions"
      return { allowed := true, maximum_depth, actions }
    | _ => .ok .none
  | _ => .error (refusal .grantInvalid pointer "expected an object")

def validateRoleRef (role : String × Json) : Chk (String × String) := do
  let alias_id ← boundedIdentifier (.str role.1) .grantInvalid "grant#/role_refs"
  let reference ← boundedReference role.2 .grantInvalid s!"grant#/role_refs/id={alias_id}"
  return (alias_id, reference)

def validateArtifact (P : Platform) (value : Json) : Chk Artifact :=
  need (value.str?.bind Artifact.ofText?)
    (refusal .grantArtifactInvalid "grant#/artifact"
      "the delivery target is one of the declared artifact kinds"
      [("artifact", .str (takeText 64 (P.str value)))])

def validateGrantPayload (P : Platform) (value : Json) : Chk GrantPayload := do
  let fields ← need value.object? (plain .grantInvalid)
  let unknown := outside fields grantFields
  ensure (unknown.length == 0) (unknownFields .grantInvalid "grant#/payload" unknown)
  let grant_id ← boundedIdentifier (field fields "grant_id") .grantInvalid "grant#/grant_id"
  let subject_ref ← boundedReference (field fields "subject_ref") .grantInvalid "grant#/subject_ref"
  let role_instance ←
    boundedIdentifier (field fields "role_instance") .grantInvalid "grant#/role_instance"
  let actionTexts ← textList (field fields "allowed_actions") .grantInvalid "grant#/allowed_actions"
  ensure (actionTexts.length != 0)
    (refusal .grantInvalid "grant#/allowed_actions" "a grant names the actions it authorises")
  let allowed_actions ← declaredActions actionTexts "grant#/allowed_actions"
    "an action is one of the declared scheduling actions"
  let data_destinations ← referenceList (fieldD fields "data_destinations" (.list [])) .grantInvalid
    "grant#/data_destinations"
  let tool_refs ← referenceList (fieldD fields "tool_refs" (.list [])) .grantInvalid "grant#/tool_refs"
  let model_refs ←
    referenceList (fieldD fields "model_refs" (.list [])) .grantInvalid "grant#/model_refs"
  let execution_kind_refs ← referenceList (fieldD fields "execution_kind_refs" (.list []))
    .grantInvalid "grant#/execution_kind_refs"
  let noRoles := refusal .grantInvalid "grant#/role_refs"
    "a grant fixes the role revisions a decision may bind"
  let roles ← need (fieldD fields "role_refs" (.object [])).object? noRoles
  ensure (roles.length != 0) noRoles
  let role_refs ← each validateRoleRef roles
  let artifact ← optional (validateArtifact P) (field fields "artifact")
  let inputs ← textList (field fields "inputs") .grantInvalid "grant#/inputs"
  let scope ← normalizedScopes P (field fields "scope") .grantInvalid "grant#/scope"
  let write_scope ← normalizedScopes P (field fields "write_scope") .grantInvalid "grant#/write_scope"
  let required_outcomes ←
    textList (field fields "required_outcomes") .grantInvalid "grant#/required_outcomes"
  let resource_policy ← validateResourcePolicy (field fields "resource_policy")
  let delegation ← validateDelegation (field fields "delegation")
  let expires_at ←
    optional (fun time => number P time .grantInvalid "grant#/expires_at") (field fields "expires_at")
  return {
    grant_id, subject_ref, role_instance, allowed_actions,
    inputs := sorted inputs
    scope := sorted scope
    write_scope := sorted write_scope
    required_outcomes := sorted required_outcomes
    role_refs := Dict.ofList role_refs
    model_refs := sorted model_refs
    execution_kind_refs := sorted execution_kind_refs
    tool_refs := sorted tool_refs
    data_destinations := sorted data_destinations
    artifact, resource_policy, delegation, expires_at }

-- Narrowing

def notASubset (dimension pointer detail : String) (fields : List (String × Json) := []) :
    SchedulingError :=
  refusal .grantNotASubset s!"grant#/{pointer}" detail (("dimension", .str dimension) :: fields)

def subset (parent child : List String) (dimension : String) : Chk Unit :=
  let extra := notIn parent child
  ensure (extra.length == 0)
    (notASubset dimension dimension "a child grant cannot add to its parent's authority"
      [("not_permitted", ofTexts (extra.take 16))])

def requireRoleRef (parent : Authority) (role : String × String) : Chk Unit :=
  ensure (parent.role_refs.get? role.1 = some role.2)
    (notASubset "role_refs" s!"role_refs/id={role.1}"
      "a child binds the same role revisions its parent permits" [("role", .str role.1)])

/-- The delivery target is a permission: a child may lower it, never raise it. -/
def requireArtifact (parent child : Option Artifact) : Chk Unit :=
  match child with
  | none => .ok ()
  | some child =>
    match parent with
    | none => .error (notASubset "artifact" "artifact" "the parent granted no delivery target to narrow")
    | some parent =>
      ensure (child.rank ≤ parent.rank)
        (notASubset "artifact" "artifact" "a child cannot widen the delivery target it was given"
          [("parent_artifact", .str parent.text)])

def requirePolicy (parent child : GrantPolicy) : Chk Unit := do
  ensure (child.budget_ref = parent.budget_ref)
    (refusal .grantBudgetRebound "grant#/resource_policy/budget_ref"
      "a child draws on the same budget, so occupancy is never multiplied"
      [("dimension", .str "resource_policy.budget_ref")])
  ensure (child.pool_id = parent.pool_id)
    (refusal .grantBudgetRebound "grant#/resource_policy/pool_id"
      "a child cannot move the same budget to a second pool"
      [("dimension", .str "resource_policy.pool_id")])
  ensure (parent.cost_per_claim ≤ child.cost_per_claim)
    (notASubset "resource_policy.cost_per_claim" "resource_policy/cost_per_claim"
      "a child cannot make a claim cheaper than its parent accounts it")
  match parent.max_active_claims, child.max_active_claims with
  | none, _ => .ok ()
  | some _, none =>
    .error (notASubset "resource_policy.max_active_claims" "resource_policy/max_active_claims"
      "a child cannot remove its parent's occupancy ceiling")
  | some cap, some maximum =>
    ensure (maximum ≤ cap)
      (notASubset "resource_policy.max_active_claims" "resource_policy/max_active_claims"
        "a child's ceiling is at most its parent's")

def requireExpiry (parent child : Option Rat) : Chk Unit :=
  match parent with
  | none => .ok ()
  | some parent =>
    ensure (match child with | none => false | some child => child ≤ parent)
      (notASubset "expires_at" "expires_at" "a child expires no later than its parent")

def delegationNotPermitted (pointer detail : String) (fields : List (String × Json) := []) :
    SchedulingError :=
  refusal .delegationNotPermitted s!"grant#/{pointer}" detail fields

/-- What a child may pass on, and how far, given what its parent made delegable. -/
def requireDelegation (root parent : Grant) (child : Authority) : Chk Unit := do
  ensure (!(child.delegation.allowed && !parent.delegation.allowed))
    (delegationNotPermitted "delegation" "the parent did not enable further delegation")
  ensure parent.delegation.allowed
    (delegationNotPermitted "parent_grant_id" "the parent did not enable delegation")
  subset (parent.delegation.actions.map text) (child.allowed_actions.map text)
    "allowed_actions"
  let delegable := parent.delegation.actions.filter child.allowed_actions.contains
  if child.delegation.allowed then
    subset (delegable.map text) (child.delegation.actions.map text) "delegation.actions"
  -- the chain a child may start is no longer than the one its parent was given
  let effective : Int := min parent.delegation.maximum_depth (root.delegation.maximum_depth - parent.depth)
  ensure (!(child.delegation.allowed && effective < child.delegation.maximum_depth))
    (delegationNotPermitted "delegation/maximum_depth"
      "a child cannot lengthen the bounded delegation chain"
      [("dimension", .str "delegation.maximum_depth"), ("parent_maximum_depth", .int effective)])

/-- Refuse a child that is not contained in its parent, in every dimension. With
no `root` the parent stands for it. -/
def requireSubset (parent : Grant) (child : Authority) (root : Option Grant := none) : Chk Unit := do
  subset (parent.allowed_actions.map text) (child.allowed_actions.map text)
    "allowed_actions"
  subset parent.inputs child.inputs "inputs"
  subset parent.required_outcomes child.required_outcomes "required_outcomes"
  subset parent.model_refs child.model_refs "model_refs"
  subset parent.execution_kind_refs child.execution_kind_refs "execution_kind_refs"
  subset parent.tool_refs child.tool_refs "tool_refs"
  subset parent.data_destinations child.data_destinations "data_destinations"
  ensure (containsScope parent.scope child.scope)
    (notASubset "scope" "scope" "a child scope is not contained in its parent's paths")
  ensure (containsScope parent.write_scope child.write_scope)
    (notASubset "write_scope" "write_scope"
      "a child write scope is not contained in its parent's paths")
  let _ ← each (requireRoleRef parent.toAuthority) child.role_refs.entries
  ensure ((notIn parent.role_refs.keys child.role_refs.keys).length == 0)
    (notASubset "role_refs" "role_refs" "a child cannot bind a role its parent does not permit")
  requireArtifact parent.artifact child.artifact
  requirePolicy parent.resource_policy child.resource_policy
  requireExpiry parent.expires_at child.expires_at
  requireDelegation (root.getD parent) parent child

/-- Refuse a delegation beyond any bound in force along the chain. -/
def requireDelegationDepth (root parent : Grant) (child_depth : Nat) (ancestors : List Grant := []) :
    Chk Unit := do
  let remaining : Int :=
    ancestors.foldl
      (fun remaining ancestor =>
        min remaining (ancestor.delegation.maximum_depth - (parent.depth - ancestor.depth : Int)))
      (root.delegation.maximum_depth - parent.depth)
  -- a parent that cannot delegate at all has no remaining steps
  let remaining := if parent.delegation.allowed then remaining else 0
  let steps : Int := child_depth - parent.depth
  ensure (steps ≤ remaining)
    (refusal .delegationDepthExceeded "grant#/delegation"
      "the authorised delegation chain is exhausted" [("remaining_steps", .int (max remaining 0))])
  ensure (steps == 1)
    (refusal .delegationDepthExceeded "grant#/delegation" "a child is one step below its parent")

end Karajan.Scheduling
