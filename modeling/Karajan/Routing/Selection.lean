import Karajan.Lib.Listing
import Karajan.Routing.Models
import Mathlib.Data.List.DropRight
import Mathlib.Data.List.ReduceOption

/-!
# Compiling a rulebook

A rulebook is checked as a whole before any of its rules is applied. What is
doubtful but well formed is reported with it: a group or a requirement that is
empty, and two rules of one priority that some task would match both of.
-/

namespace Karajan.Routing

open Capacity (Purpose)
open Execution (Role)
open Check Listing

inductive RoutingError
  | rulesRequired
  | ruleIdentityConflict
  | profileReferenceDuplicated
  | ruleConditionInvalid
  | commanderHandoffRequired
  | ruleSetDuplicated
  | qualityStageCycle
  | groupReferenceUnknown
  | profilePreferenceDuplicated
  | profilePreferenceUnknown
  | queueOrderInvalid
  | candidateOrderInvalid
  | snapshotIdentityConflict
  | credentialValueForbidden
  | routingPathInvalid
  | riskMappingRequired
  | riskPolicyFloorInvalid
  | taskPurposeInvalid
deriving DecidableEq

def RoutingError.code : RoutingError → String
  | .rulesRequired => "RULES_REQUIRED"
  | .ruleIdentityConflict => "RULE_IDENTITY_CONFLICT"
  | .profileReferenceDuplicated => "PROFILE_REFERENCE_DUPLICATED"
  | .ruleConditionInvalid => "RULE_CONDITION_INVALID"
  | .commanderHandoffRequired => "COMMANDER_HANDOFF_REQUIRED"
  | .ruleSetDuplicated => "RULE_SET_DUPLICATED"
  | .qualityStageCycle => "QUALITY_STAGE_CYCLE"
  | .groupReferenceUnknown => "GROUP_REFERENCE_UNKNOWN"
  | .profilePreferenceDuplicated => "PROFILE_PREFERENCE_DUPLICATED"
  | .profilePreferenceUnknown => "PROFILE_PREFERENCE_UNKNOWN"
  | .queueOrderInvalid => "QUEUE_ORDER_INVALID"
  | .candidateOrderInvalid => "CANDIDATE_ORDER_INVALID"
  | .snapshotIdentityConflict => "SNAPSHOT_IDENTITY_CONFLICT"
  | .credentialValueForbidden => "CREDENTIAL_VALUE_FORBIDDEN"
  | .routingPathInvalid => "ROUTING_PATH_INVALID"
  | .riskMappingRequired => "RISK_MAPPING_REQUIRED"
  | .riskPolicyFloorInvalid => "RISK_POLICY_FLOOR_INVALID"
  | .taskPurposeInvalid => "TASK_PURPOSE_INVALID"

-- Overlapping conditions

/-- Two conditions on one field, both stated, ask for different values. -/
def disagree [DecidableEq α] (left right : Option α) : Bool := left.isSome && right.isSome && left ≠ right

def When.classes (row : When) : List Class :=
  match row.effective_class, row.effective_class_in with
  | some c, _ => [c]
  | none, some (c :: rest) => c :: rest
  | none, _ => [.T1, .T2, .T3]

/-- A risk that nothing names. Each round makes the text longer, and there are no more
names to meet than rounds. -/
def unlistedRisk (named : List String) : Nat → String → String
  | 0, sentinel => sentinel
  | rounds + 1, sentinel =>
    if sentinel ∈ named then unlistedRisk named rounds (sentinel ++ "_") else sentinel

def sharedRisks (left right : When) : List String :=
  if left.risks_in ≠ [] ∧ right.risks_in ≠ [] then
    left.risks_in.filter (· ∈ right.risks_in)
  else left.risks_in ++ right.risks_in

def sharedPurposes (left right : When) : List (Option Purpose) :=
  match left.purpose.or right.purpose with
  | some purpose => [some purpose]
  | none => if left.role = .commander then [some .lead, some .advice] else [none]

def sharedReadiness (left right : When) : List Readiness :=
  match left.readiness.or right.readiness with
  | some readiness => [readiness]
  | none => [.ready, .T0]

def When.covers (row : When) (kind : Class) (risk : String) (purpose : Option Purpose)
    (readiness : Readiness) (domains : List String) : Bool :=
  (row.purpose.isNone || row.purpose = purpose) &&
  (row.readiness.isNone || row.readiness = some readiness) &&
  kind ∈ row.classes &&
  (row.risks_in = [] || risk ∈ row.risks_in) &&
  row.domains_all.all (· ∈ domains)

/-- Some task meets both conditions and none of the higher ones. -/
def overlap (left right : When) (higher : List When) : Bool :=
  let shared := left.classes.filter (· ∈ right.classes)
  let risks := sharedRisks left right
  if left.role ≠ right.role || disagree left.purpose right.purpose ||
      disagree left.readiness right.readiness then false
  else if shared = [] then false
  else if left.risks_in ≠ [] && right.risks_in ≠ [] && risks = [] then false
  else if higher.isEmpty then true
  else
    let named := higher.flatMap When.risks_in
    let risks := if risks = [] then [unlistedRisk named named.length "_unlisted_risk"] else risks
    shared.any fun kind => risks.any fun risk =>
      (sharedPurposes left right).any fun purpose => (sharedReadiness left right).any fun readiness =>
        !higher.any (·.covers kind risk purpose readiness (left.domains_all ++ right.domains_all))

-- The checks

def Rulebook.group (doc : Rulebook) (name : String) : List ProfileRef := (doc.profile_groups.get? name).getD []

def Rule.groups (rule : Rule) : List String := rule.eligible_groups ++ rule.quality_escalation_groups

def checkRule (doc : Rulebook) (rule : Rule) : Except RoutingError Unit := do
  let row := rule.when
  ensure (!(row.effective_class.isSome && row.effective_class_in.isSome ||
    row.effective_class_in = some [])) .ruleConditionInvalid
  ensure (row.role = .commander || row.purpose.isNone) .ruleConditionInvalid
  ensure (!(row.role = .commander && row.purpose ≠ some .advice &&
    rule.reroute ≠ .proposeCheckpointHandoffRequireUserDecision)) .commanderHandoffRequired
  ensure (decide rule.eligible_groups.Nodup) .ruleSetDuplicated
  ensure (decide rule.capabilities_all.Nodup) .ruleSetDuplicated
  ensure (decide rule.quality_escalation_groups.Nodup) .ruleSetDuplicated
  ensure (decide rule.independence.Nodup) .ruleSetDuplicated
  ensure (!rule.eligible_groups.any (· ∈ rule.quality_escalation_groups)) .qualityStageCycle
  ensure (decide row.domains_all.Nodup) .ruleConditionInvalid
  ensure (decide row.risks_in.Nodup) .ruleConditionInvalid
  ensure (row.effective_class_in.all fun classes => decide classes.Nodup) .ruleConditionInvalid
  ensure (rule.groups.all doc.profile_groups.contains) .groupReferenceUnknown
  ensure (decide (rule.profile_preferences.map Preference.profile).Nodup) .profilePreferenceDuplicated
  ensure (rule.profile_preferences.all (·.profile ∈ rule.groups.flatMap doc.group))
    .profilePreferenceUnknown

/-- All of them, each one once, and the profile's own name last. -/
def candidateOrderValid (order : List Criterion) : Bool :=
  order.length = 6 &&
  [.preferenceBand, .uncertaintyBand, .bottleneckQuotaPressure, .incrementalCashEstimate,
    .completionTimeEstimate, .profileId].all (· ∈ order) &&
  order.getLast? = some .profileId

def queueOrderValid (queue : List QueueItem) : Bool :=
  queue.length = 4 &&
  [.leadFeedback, .requiredReviewRepairAndCriticalPath, .worker, .optionalAdviser].all (· ∈ queue)

def checkRulebook (doc : Rulebook) : Except RoutingError Unit := do
  ensure (!doc.rules.isEmpty) .rulesRequired
  ensure (decide (doc.rules.map Rule.id).Nodup) .ruleIdentityConflict
  ensure (doc.profile_groups.values.all fun refs => decide refs.Nodup) .profileReferenceDuplicated
  let _ ← each (checkRule doc) doc.rules
  ensure (queueOrderValid doc.resource_policy.queue_order) .queueOrderInvalid
  ensure (candidateOrderValid doc.resource_policy.candidate_order) .candidateOrderInvalid

-- Reports

inductive IssueCode
  | ruleRequirementEmpty
  | ruleAmbiguous (other_rule : String)
deriving DecidableEq

structure Issue where
  path : String
  code : IssueCode
deriving DecidableEq

def requirementIssues (index : Nat) (rule : Rule) : List Issue :=
  [("eligible_groups", rule.eligible_groups), ("capabilities_all", rule.capabilities_all)].filterMap
    fun (name, stated) =>
      if stated.isEmpty then some ⟨s!"rules.{index}.{name}", .ruleRequirementEmpty⟩ else none

/-- The first rule before this one that it may be confused with. -/
def ambiguityIssue (rules : List Rule) (index : Nat) (rule : Rule) : Option Issue :=
  let higher := (rules.filter fun row =>
    row.priority > rule.priority && row.when.role = rule.when.role).map Rule.when
  ((rules.take index).find? fun other =>
    rule.priority = other.priority && overlap rule.when other.when higher).map fun other =>
      ⟨s!"rules.{index}", .ruleAmbiguous other.id⟩

def compileIssues (rules : List Rule) : List Issue := rules.zipIdx.flatMap fun (rule, index) =>
    requirementIssues index rule ++ (ambiguityIssue rules index rule).toList

def compileWarnings (doc : Rulebook) : List String :=
  (sortedSet doc.profile_groups.keys).filter fun name => (doc.group name).isEmpty

structure Compiled where
  document : Rulebook
  issues : List Issue
  warnings : List String

def compileRulebook (doc : Rulebook) : Except RoutingError Compiled := do
  checkRulebook doc
  return ⟨doc, compileIssues doc.rules, (compileWarnings doc).map fun name => s!"profile_groups.{name}"⟩

-- Selecting a rule

-- Classes

def Class.level : Class → Nat
  | .T1 => 1
  | .T2 => 2
  | .T3 => 3

def Class.max (first : Class) (others : List Class) : Class :=
  others.foldl (fun c d => if c.level < d.level then d else c) first

-- Paths

def reservedNames : List String :=
  ["CON", "PRN", "AUX", "NUL", "CONIN$", "CONOUT$"] ++ ["COM", "LPT"].flatMap fun device =>
      ['1', '2', '3', '4', '5', '6', '7', '8', '9', '¹', '²', '³'].map fun digit =>
        device.push digit

/-- A name without drive or separator, up to its first dot, is a device's. -/
def isReserved (L : Library) (part : List Char) : Bool :=
  L.upper (String.ofList ((part.takeWhile (· ≠ '.')).rdropWhile (· = ' '))) ∈ reservedNames

def isPart (L : Library) (part : List Char) : Bool :=
  part ≠ [] && part ≠ ['.'] && part ≠ ['.', '.'] &&
  !part.getLast?.any (fun c => c = '.' || c = ' ') && !isReserved L part

/-- A relative path in the one spelling that is accepted, in parts. -/
def paths (L : Library) (value : String) : Except RoutingError (List String) := do
  let parts := value.toList.splitOn '/'
  ensure (parts.all (isPart L)) .routingPathInvalid
  ensure (!value.toList.any (· ∈ ['\\', ':', '*', '?', '[', ']', '<', '>', '|', '"', '\x00']))
    .routingPathInvalid
  ensure (value.toList.all L.isprintable) .routingPathInvalid
  return parts.map fun part => L.casefold (String.ofList part)

-- Floors

def pathFloors (L : Library) (risks : RiskPolicy) (value : String) : Except RoutingError (List Class) := do
  let path ← paths L value
  let found ← each (fun floor => do
    let stem ← paths L floor.pathPrefix
    return if path.take stem.length = stem then some floor.minimum_class else none) risks.path_floors
  return found.reduceOption

def floor (L : Library) (risks : RiskPolicy) (work : Work) : Except RoutingError Class := do
  let risk ← need (risks.mapping.get? work.risk) .riskMappingRequired
  let found ← each (pathFloors L risks) work.paths
  return work.complexity.max (risk :: found.flatten)

def matchesTask (rule : Rule) (task : TaskClassification) (effective : Class) : Bool :=
  let row := rule.when
  row.role = task.role &&
  (row.purpose.isNone || row.purpose = task.purpose) &&
  (row.readiness.isNone || row.readiness = some task.readiness) &&
  (row.effective_class.isNone || row.effective_class = some effective) &&
  row.effective_class_in.all (effective ∈ ·) &&
  row.domains_all.all (· ∈ task.domains) &&
  (row.risks_in = [] || task.risk ∈ row.risks_in)

/-- The work a classification is about: the task's own, and that of its authors. -/
def TaskClassification.works (task : TaskClassification) : List Work :=
  task.toWork :: task.authors.map Author.toWork

def validateClassification (L : Library) (task : TaskClassification) (risks : RiskPolicy) :
    Except RoutingError Unit := do
  let _ ← each (fun floor => paths L floor.pathPrefix) risks.path_floors
  ensure ((risks.mapping.get? "critical").all (· = .T3)) .riskPolicyFloorInvalid
  let _ ← each (fun work => each (paths L) work.paths) task.works
  ensure ((task.role = .commander) = task.purpose.isSome) .taskPurposeInvalid

-- The rule

inductive Refusal
  | taskNotReady
  | unclassified (error : RoutingError)
  | ruleAmbiguous
  | noRule
  | ruleRequirementEmpty
  | stageNotAuthorized
  | qualityFailureRequired
  | previousProfileNotAuthorized
  | qualityRepairLimitReached
  | qualityStageNotAuthorized
  | qualityStageNotReached
  | reservedProfileNotStageCandidate
  | noEligibleProfile
  | noStageCandidate

def Refusal.code : Refusal → String
  | .taskNotReady => "TASK_NOT_READY"
  | .unclassified error => error.code
  | .ruleAmbiguous => "RULE_AMBIGUOUS"
  | .noRule => "NO_RULE"
  | .ruleRequirementEmpty => "RULE_REQUIREMENT_EMPTY"
  | .stageNotAuthorized => "STAGE_NOT_AUTHORIZED"
  | .qualityFailureRequired => "QUALITY_FAILURE_REQUIRED"
  | .previousProfileNotAuthorized => "PREVIOUS_PROFILE_NOT_AUTHORIZED"
  | .qualityRepairLimitReached => "QUALITY_REPAIR_LIMIT_REACHED"
  | .qualityStageNotAuthorized => "QUALITY_STAGE_NOT_AUTHORIZED"
  | .qualityStageNotReached => "QUALITY_STAGE_NOT_REACHED"
  | .reservedProfileNotStageCandidate => "RESERVED_PROFILE_NOT_STAGE_CANDIDATE"
  | .noEligibleProfile => "NO_ELIGIBLE_PROFILE"
  | .noStageCandidate => "NO_STAGE_CANDIDATE"

structure MatchingRule where
  id : String
  priority : Int

structure Selection where
  reason_codes : List Refusal
  effective_class : Option Class
  rule_id : Option String
  matching_rules : List MatchingRule
  rule : Option Rule

def ruleOrder (a b : Rule) : Prop := toLex (-a.priority, a.id) ≤ toLex (-b.priority, b.id)

instance : DecidableRel ruleOrder := fun a b =>
  inferInstanceAs (Decidable (toLex (-a.priority, a.id) ≤ toLex (-b.priority, b.id)))

section
variable (L : Library) (task : TaskClassification)

def reviewedClasses (risks : RiskPolicy) : Except RoutingError (List Class) :=
  if task.role = .reviewer then each (fun author => floor L risks author.toWork) task.authors
  else .ok []

def effectiveClass (risks : RiskPolicy) : Except RoutingError Class := do
  let first ← floor L risks task.toWork
  let others ← reviewedClasses L task risks
  return first.max others

def highestRules (found : List Rule) : List Rule :=
  found.filter fun r => some r.priority = (found.map Rule.priority).max?

def selectCompiledRule (doc : Rulebook) (risks : RiskPolicy) : Selection :=
  if task.readiness = .T0 ∧ task.role = .worker then ⟨[.taskNotReady], none, none, [], none⟩
  else match effectiveClass L task risks with
  | .error error => ⟨[.unclassified error], none, none, [], none⟩
  | .ok effective =>
    let found := doc.rules.filter (matchesTask · task effective)
    let matching := (found.insertionSort ruleOrder).map fun r => ⟨r.id, r.priority⟩
    match highestRules found with
    | [] => ⟨[.noRule], some effective, none, matching, none⟩
    | [rule] =>
      if rule.eligible_groups = [] ∨ rule.capabilities_all = [] then
        ⟨[.ruleRequirementEmpty], some effective, some rule.id, matching, some rule⟩
      else ⟨[], some effective, some rule.id, matching, some rule⟩
    | _ :: _ :: _ => ⟨[.ruleAmbiguous], some effective, none, matching, none⟩

end

end Karajan.Routing
