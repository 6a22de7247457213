import Karajan.Qualifying.Commands

/-!
# Facts of a profile

The facts come from the newest start that is of the scope, the suite and the
profile, or there are none.
-/

namespace Karajan.Qualifying

open Check

structure Facts where
  facts : ProfileFacts
  (qualification_scope runtime_tools_status : String)
  observation : Record
  capabilities : List String

def factsOf (record : Record) (profile : Profile) (producer : String) (roles tools : List String)
    (context_tokens : Option Nat) (data_destination runtime_tools_status : String) (capabilities : List String) :
    Facts where
  facts := ⟨profile, profile.runtime_version, roles, tools, context_tokens, data_destination, "unknown",
    record.provenance, producer ++ record.id, record.observed_at, record.valid_until⟩
  qualification_scope := record.qualification_scope
  runtime_tools_status := runtime_tools_status
  observation := record
  capabilities := capabilities

def fixedFacts (profile : Profile) (record : Record) : Facts :=
  let fixture := record.qualification_scope = "fixed_native_tools_fixture"
  factsOf record profile "fixed-go-qualification:" (if fixture then [] else ["worker"])
    ["fixed_go_fixture_read", "fixed_go_fixture_edit"] none (if fixture then "http_fixture" else "opencode-go")
    "not_run" ["fixed_go_fixture_read", "fixed_go_fixture_edit", "fixed_go_fixture_denied_read"]

def operatingContext (execution : Execution) : Option Nat := do
  let spec ← execution.source.probe_spec
  let context ← spec.context
  return context.operating_context_tokens

section
variable (lib : Library)

def projectedFacts (profile : Profile) (record : Record) (execution : Execution) : Except String Facts := do
  ensure (lib.projected_observation_passed execution record.observation) "PROJECTED_EXECUTOR_EVIDENCE_INCOMPLETE"
  let producer := "projected-go-qualification:"
  if isFixture record.qualification_scope then
    return factsOf record profile producer [] ["projected_fixture_read", "projected_fixture_edit"] none "http_fixture"
      "not_run" ["projected_fixture_read", "projected_fixture_edit", "projected_fixture_capture"]
  else
    return factsOf record profile producer ["worker"] ["read", "edit"] (operatingContext execution) "opencode-go"
      "passed" ["bounded_code_edit", "controlled_tools", "candidate_capture"]

def readonlyFacts (profile : Profile) (record : Record) (execution : Execution) : Except String Facts := do
  ensure (lib.readonly_observation_passed execution record.observation) "READONLY_REVIEWER_EVIDENCE_INCOMPLETE"
  let producer := "readonly-go-reviewer-qualification:"
  if isFixture record.qualification_scope then
    return factsOf record profile producer [] [] none "http_fixture" "not_run" []
  else
    return factsOf record profile producer ["reviewer"] ["read"] (operatingContext execution) "opencode-go"
      "passed" ["code_review", "structured_findings"]

def goFacts (w : World) (db : Database) (project_id : String) (profile : Profile) (record : Record)
    (start : StartBinding) (source : Source) (requested_scope : String) : Except String Facts := do
  let changed := "QUALIFICATION_RUNTIME_MISMATCH"
  match start.origin with
  | .fixture _ | .commander _ _ => .error changed
  | .go execution controller_sha256 =>
    ensure (record.binding = .start start && controller_sha256 = w.controller_sha256 && execution.source = source) changed
    let authentication ← currentLocked w db.environment project_id profile.auth_ref
    ensure (authentication = execution.authentication_source) "AUTHENTICATION_SOURCE_MISMATCH"
    if execution.suite_ref = PROJECTED_GO_SUITE then
      projectedFacts lib profile record execution
    else if execution.suite_ref = READONLY_GO_SUITE then
      readonlyFacts lib profile record execution
    else
      ensure (requested_scope ≠ "runtime_tools") "TASK_PERMISSION_SCOPE_NOT_QUALIFIED"
      return fixedFacts profile record

def localFacts (w : World) (profile : Profile) (record : Record) (fixture_root : Option String) :
    Except String Facts := do
  let root ← need fixture_root "FIXTURE_ROOT_REQUIRED"
  let root ← w.safe_root root
  let .fixture _ runtime := record.binding | .error "QUALIFICATION_RUNTIME_MISMATCH"
  ensure (runtime = w.runtime root) "QUALIFICATION_RUNTIME_MISMATCH"
  return factsOf record profile "local-qualification:" ["worker", "reviewer"] ["fixture-tools"] none
    "local_fixture" "not_run" ["fixed_fixture_write", "fixed_fixture_check", "fixed_fixture_review"]

def RUNTIME_SCOPES : List String :=
  ["runtime_tools", "fixed_native_tools", "fixed_native_tools_fixture", "projected_native_tools",
    "projected_native_tools_fixture", "readonly_reviewer_tools", "readonly_reviewer_tools_fixture"]

def deployed (w : World) (frozen : Registration) : Option Source :=
  let readonly := (frozen.profile.bind (·.native_suite_ref)) = some READONLY_GO_SUITE
  if readonly then w.reviewer_suite else w.go_suite

/-- The source that is deployed, and the scope and the suite that a reader of the scope asks for. -/
def wanted (w : World) (frozen : Registration) (scope : String) : Except String (Option Source × String × Ref) := do
  if scope = "local_fixture" then
    return (none, "local_fixture", LOCAL_SUITE)
  else
    ensure (RUNTIME_SCOPES.contains scope) "RUNTIME_TOOLS_NOT_QUALIFIED"
    let source ← need (deployed w frozen) "RUNTIME_TOOLS_NOT_QUALIFIED"
    let source_scope ← goScope source
    let wanted_scope := if scope = "runtime_tools" then source_scope else scope
    ensure (source_scope = wanted_scope && !(scope = "runtime_tools" && isFixture source_scope))
      "RUNTIME_TOOLS_NOT_QUALIFIED"
    return (some source, wanted_scope, source.suite_ref)

/-- `_facts`: of the registration that the reader has frozen, in the scope that it names. -/
def facts (w : World) (db : Database) (project_id : String) (frozen : Registration) (scope : String)
    (fixture_root : Option String) : Except String Facts := do
  let (source, wanted_scope, wanted_suite) ← wanted w frozen scope
  ensure (source.isSome || fixture_root.isSome) "FIXTURE_ROOT_REQUIRED"
  let current ← db.environment.binding project_id frozen.ref
  ensure (current.registration = frozen) "PROFILE_IDENTITY_MISMATCH"
  ensure frozen.enabled "PROFILE_DISABLED"
  let start ← need (latest db.starts fun s => s.isOf project_id frozen.ref &&
    s.binding.qualification_scope = wanted_scope && s.binding.suite_ref = wanted_suite) "PROFILE_FACTS_MISSING"
  let record ← db.record start.id
  ensure (db.revocations.get? record.id).isNone "QUALIFICATION_REVOKED"
  ensure (record.binding.profile_binding = current) "PROFILE_IDENTITY_MISMATCH"
  ensure (record.status = "passed") "QUALIFICATION_NOT_PASSED"
  let now ← need w.now "QUALIFICATION_CLOCK_INVALID"
  ensure (record.observed_at ≤ now && now < record.valid_until) "QUALIFICATION_EXPIRED"
  match source with
  | some source => goFacts lib w db project_id current.profile record start.binding source scope
  | none => localFacts w current.profile record fixture_root

/-- The source that is deployed for commanders, made for the profile as it is. -/
def commanderSource (w : World) (e : Environment) (project_id : String) (current : Binding) :
    Except String Source := do
  let suite ← need w.commander_suite "COMMANDER_SOURCE_UNAVAILABLE"
  let authentication ← currentLocked w e project_id current.profile.auth_ref
  return suite.source current authentication

/-- `_commander_facts_locked`, each check of which that fails leaves no facts. -/
def commanderFactsLocked (w : World) (db : Database) (project_id : String) (frozen : Registration) (scope : String)
    (current_source : Source) : Option (Record × CommanderFacts) := do
  let current ← (db.environment.binding project_id frozen.ref).toOption
  guard (current.registration = frozen ∧ frozen.enabled)
  let start ← latest db.starts fun s => s.isOf project_id frozen.ref && s.binding.qualification_scope = scope
  guard (start.binding.profile_binding = current)
  let .commander execution _ := start.binding.origin | none
  guard (execution.source = current_source)
  let record ← db.records.get? start.id
  let found ← record.commander_facts
  let now ← w.now
  let later ← w.later
  guard (record.binding = .start start.binding ∧ record.qualification_scope = scope ∧ record.status = "passed" ∧
    record.provenance = "official" ∧ (db.revocations.get? record.id).isNone ∧
    record.observed_at ≤ now ∧ now < record.valid_until ∧ later < found.profile_facts.valid_until)
  guard (found.profile_facts.profile = current.profile ∧ "commander" ∈ found.profile_facts.roles ∧
    found.source_generation = current_source)
  return (record, found)

/-- `commander_facts_guard`: what a reader gets, at first and whenever it asks again. -/
def commanderFacts (w : World) (db : Database) (project_id principal : String) (frozen : Registration) :
    Option (Record × CommanderFacts) := do
  guard (owned lib db project_id principal).toBool
  let current ← (db.environment.binding project_id frozen.ref).toOption
  let source ← (commanderSource w db.environment project_id current).toOption
  commanderFactsLocked w db project_id frozen COMMANDER_SCOPE source

-- Runs

/-- A start whose suite did not run yet, and one whose record did not commit yet, stay with who
called. They are never taken up if that caller stops. -/
structure State where
  db : Database
  begun : List Start
  ran : List (Start × Observation)
  /-- The starts that were observed, each time one was. -/
  observed : List String

inductive Action
  | begin (call : Call) (w : World)
  | observe (index : Nat) (observation : Observation)
  | complete (index : Nat) (w : World)
  | revoke (revocation : Revocation) (w : World)
  /-- Other commands change projects, catalogs and credentials. -/
  | change (environment : Environment)

def State.step (s : State) : Action → State
  | .begin call w =>
    match begin lib w s.db call with
    | .ok (.inr start) => { s with db := { s.db with starts := s.db.starts ++ [start] }, begun := s.begun ++ [start] }
    | .ok (.inl _) | .error _ => s
  | .observe index observation =>
    match s.begun[index]? with
    | some start => { s with
        begun := s.begun.eraseIdx index
        ran := s.ran ++ [(start, observation)]
        observed := start.id :: s.observed }
    | none => s
  | .complete index w =>
    match s.ran[index]? with
    | some (start, observation) =>
      let s := { s with ran := s.ran.eraseIdx index }
      match complete lib w s.db start observation with
      | .ok record => { s with db := { s.db with records := s.db.records.put start.id record } }
      | .error _ => s
    | none => s
  | .revoke revocation w =>
    match revoke lib w s.db revocation with
    | .ok db => { s with db := db }
    | .error _ => s
  | .change environment => { s with db := { s.db with environment := environment } }

def qualifications : System State Action where
  initial := fun s => s.db.starts = [] ∧ s.db.records = .empty ∧ s.db.revocations = .empty ∧
    s.begun = [] ∧ s.ran = [] ∧ s.observed = []
  step := State.step lib

end

end Karajan.Qualifying
