import Karajan.Planner.RoutingAuthorization

/-!
# The document of a run

A run holds the proposals that were submitted in it, the approvals, the
handoffs of its command, and the intents under which planning is admitted.
Plans of both versions are kept in one list. What no command reads is left out.
-/

namespace Karajan.Planner

open Routing (ProfileRef)
open Listing (sortedSet)

-- Plans of both versions

inductive PlanDocument
  | v1 (plan : Plan)
  | v2 (plan : PlanV2)

def PlanDocument.base : PlanDocument → Plan
  | .v1 plan => plan
  | .v2 plan => plan.base

def PlanDocument.tasks : PlanDocument → List (PlanTask ⊕ PlanTaskV2)
  | .v1 plan => plan.tasks.map .inl
  | .v2 plan => plan.tasks.map .inr

def taskBase : PlanTask ⊕ PlanTaskV2 → PlanTask
  | .inl task => task
  | .inr task => task.toPlanTask

def sameEntries [DecidableEq κ] [DecidableEq ν] (d d' : Dict κ ν) : Bool :=
  d.entries.all (fun e => d'.get? e.1 = some e.2) && d'.entries.all (fun e => d.get? e.1 = some e.2)

def AuthorizationV2.same (a b : AuthorizationV2) : Bool :=
  a.toAuthorization = b.toAuthorization && a.channel_ids = b.channel_ids && a.tools = b.tools &&
  a.data_destinations = b.data_destinations && a.required_capabilities = b.required_capabilities &&
  sameEntries a.currency_limits b.currency_limits &&
  a.max_attempt_duration_seconds = b.max_attempt_duration_seconds &&
  a.max_quality_repair_rounds = b.max_quality_repair_rounds &&
  sameEntries a.stage_permissions b.stage_permissions

def PlanDocument.sameAuthorization : PlanDocument → PlanDocument → Bool
  | .v1 a, .v1 b => a.authorization = b.authorization
  | .v2 a, .v2 b => a.authorization.same b.authorization
  | _, _ => false

-- Impact

structure Impact where
  (added removed changed affected reusable : List String)
  authorization_changed : Bool

def PlanDocument.task? (plan : PlanDocument) (id : String) : Option (PlanTask ⊕ PlanTaskV2) :=
  plan.tasks.find? fun task => (taskBase task).id = id

/-- What a task depends on, in the plan where it is proposed, else in the one it was active in. -/
def dependsEither (plan : PlanDocument) (active : Option PlanDocument) (id : String) : List String :=
  (((plan.task? id).or (active.bind (·.task? id))).map fun task => (taskBase task).depends_on).getD []

def impactOf (plan : PlanDocument) (active : Option PlanDocument) : Impact :=
  let proposed := plan.base.ids
  let prior := (active.map fun p => p.base.ids).getD []
  let added := proposed.filter (· ∉ prior)
  let removed := prior.filter (· ∉ proposed)
  let changed := proposed.filter fun id =>
    id ∈ prior && plan.task? id ≠ active.bind (·.task? id)
  let authorization_changed := active.any fun p => !p.sameAuthorization plan
  let all := prior ++ proposed
  let first := added ++ removed ++ changed ++ if authorization_changed then all else []
  let affected := Layers.spread all (dependsEither plan active) all.length first
  { added := sortedSet added
    removed := sortedSet removed
    changed := sortedSet changed
    affected := sortedSet affected
    reusable := sortedSet (proposed.filter (· ∉ affected))
    authorization_changed := authorization_changed }

-- Participants, intents and handoffs

inductive ParticipantPurpose
  | lead
  | advice
  | candidate
deriving DecidableEq

structure Participant where
  principal : String
  profile : ProfileRef
  purpose : ParticipantPurpose

structure Commander extends Participant where
  term : Nat
  handoff_id : Option String

inductive Provenance
  | fixture
  | importedObservation
  | planningExecution
deriving DecidableEq

inductive Admission
  | admitted
  | denied
  | unknown
deriving DecidableEq

structure PlanningReceipt where
  (receipt_ref authority_revision run_id intent_id : String)
  term : Nat
  principal : String
  profile : ProfileRef
  budget_ref : Option String
  state : Admission
  provenance : Provenance
deriving DecidableEq

/-- The state of an intent is that of its receipt; without one it awaits it. -/
structure PlanningIntent where
  (id run_id : String)
  term : Nat
  principal : String
  profile : ProfileRef
  budget_ref : Option String
  receipt : Option PlanningReceipt
  created_at : Rat

def PlanningIntent.admitted (intent : PlanningIntent) : Bool := intent.receipt.any (·.state = .admitted)

structure ArtifactRef where
  (ref sha256 : String)

structure Checkpoint where
  summary : String
  artifacts : List ArtifactRef

structure ResourceImpact where
  (budget_ref summary : String)

structure HandoffBinding where
  (term plan_revision : Nat)
  plan_digest : Option String
  active_plan_revision : Option Nat
  (authorization_digest configuration_digest : String)
deriving DecidableEq

inductive HandoffState
  | pending
  | superseded
  | approved
  | rejected
deriving DecidableEq

structure HandoffDraft where
  (id run_id : String)
  candidate : Participant
  checkpoint : Checkpoint
  resource_impact : ResourceImpact
  binding : HandoffBinding
  expires_at : Rat
  proposed_by : String

structure Handoff extends HandoffDraft where
  digest : String
  state : HandoffState
  decided_by : Option String
  decided_at : Option Rat

-- Stored plans and approvals

structure RoutingBound where
  routing_binding : Binding
  routing_digest : String

structure PlanDraft where
  (plan_revision term : Nat)
  (submitted_by intent_id : String)
  plan : PlanDocument
  (configuration_digest authorization_digest : String)
  provenance : Provenance
  impact : Impact
  routing : Option RoutingBound

structure StoredPlan extends PlanDraft where
  plan_digest : String

/-- A request with a routing digest is one of the second version. -/
structure ApprovePlan where
  (term plan_revision : Nat)
  (plan_digest authorization_digest configuration_digest : String)
  routing_digest : Option String

structure Approval extends ApprovePlan where
  (run_id id approved_by : String)
  approved_at : Rat

-- The run

/-- The ceiling of a run; the second version has the policy it was checked with. -/
inductive Ceiling
  | v1 (ceiling : Authorization)
  | v2 (policy : ExecutionPolicy) (ceiling : AuthorizationV2)

def Ceiling.base : Ceiling → Authorization
  | .v1 ceiling => ceiling
  | .v2 _ ceiling => ceiling.toAuthorization

def Ceiling.versionTwo : Ceiling → Bool
  | .v1 _ => false
  | .v2 _ _ => true

def PlanDocument.versionTwo : PlanDocument → Bool
  | .v1 _ => false
  | .v2 _ => true

inductive RunState
  | planning
  | awaitingApproval
  | executing

structure Run where
  id : String
  revision : Nat
  (owner project_id : String)
  state : RunState
  configuration_snapshot : ConfigurationSnapshot
  participants : List Participant
  authorization_ceiling : Ceiling
  commander : Commander
  plans : List StoredPlan
  approvals : List Approval
  handoffs : List Handoff
  planning_intents : List PlanningIntent
  active_plan_revision : Option Nat
  latest_plan_revision : Nat

def Run.activePlan (run : Run) : Option StoredPlan :=
  run.plans.find? fun stored => some stored.plan_revision = run.active_plan_revision

/-- The impact of a plan on a run, which may not state a task anew under a revision that a
plan before stated otherwise. -/
def planImpact (plan : PlanDocument) (run : Run) : Except PlanError Impact := do
  Check.ensure (run.plans.all fun stored => stored.plan.tasks.all fun task =>
    (plan.task? (taskBase task).id).all fun current =>
      (taskBase current).revision ≠ (taskBase task).revision || current = task) .taskRevisionReused
  return impactOf plan (run.activePlan.map (·.plan))

end Karajan.Planner
