import Karajan.Qualifying.Store

/-!
# Commands on qualifications

A command begins with a transaction that commits its start, then runs its suite,
then commits a record in another one. Any step may be the last one. A replay is
answered by the record of its start, or by its absence.
-/

namespace Karajan.Qualifying

open Check

inductive Request
  | runtimeTools (project_id : String) (profile_ref suite_ref : Ref) (validity_seconds : Int)
  | commanderPlanning (project_id : String) (profile_ref : Ref) (validity_seconds : Int)
  | localFixture (project_id : String) (profile_ref : Ref) (fixture_root : String) (validity_seconds : Int)
deriving DecidableEq

def Request.parts : Request → String × Ref × Int
  | .runtimeTools project_id profile_ref _ seconds => (project_id, profile_ref, seconds)
  | .commanderPlanning project_id profile_ref seconds => (project_id, profile_ref, seconds)
  | .localFixture project_id profile_ref _ seconds => (project_id, profile_ref, seconds)

structure Call where
  (principal command_key : String)
  request : Request

-- Rows

structure Scenario where
  (scenario attempt_id grant_id : String)
deriving DecidableEq

structure Execution where
  (qualification_id project_id : String)
  suite_ref : Ref
  profile_binding : Binding
  authentication_source : Authentication
  source : Source
  (started_at expires_at : Rat)
  scenarios : List Scenario
deriving DecidableEq

inductive Origin
  | fixture (runtime : String)
  | go (execution : Execution) (controller_sha256 : String)
  | commander (execution : Execution) (controller_sha256 : String)
deriving DecidableEq

structure StartBinding where
  qualification_scope : String
  suite_ref : Ref
  profile_binding : Binding
  origin : Origin
deriving DecidableEq

structure Start where
  id : String
  call : Call
  binding : StartBinding

def Start.project_id (start : Start) : String := start.call.request.parts.1

structure ScenarioResult where
  (observation_origin status : String)

structure Observation where
  status : String
  reason_codes : List String
  scenarios : List ScenarioResult
  checks : List Bool
  details : String

structure ProfileFacts where
  /-- The registered profile, which stands for its digest. -/
  profile : Profile
  runtime_version : String
  (roles tools : List String)
  context_tokens : Option Nat
  (data_destination budget_enforcement provenance evidence_ref : String)
  (observed_at valid_until : Rat)

structure CommanderFacts where
  profile_facts : ProfileFacts
  capabilities : List String
  source_generation : Source

/-- A record binds its start, or of a fixture's start the profile and the runtime. -/
inductive RecordBinding
  | start (binding : StartBinding)
  | fixture (profile_binding : Binding) (runtime : String)
deriving DecidableEq

def RecordBinding.profile_binding : RecordBinding → Binding
  | .start binding => binding.profile_binding
  | .fixture profile_binding _ => profile_binding

structure Record where
  (id project_id principal status qualification_scope : String)
  suite_ref : Ref
  provenance : String
  binding : RecordBinding
  (observed_at valid_until : Rat)
  observation : Observation
  reason_codes : List String
  commander_facts : Option CommanderFacts

structure Database where
  environment : Environment
  starts : List Start
  records : Dict String Record
  revocations : Dict String (String × String × Rat)

structure Library where
  projects : Projects.Library
  (projected_observation_passed readonly_observation_passed : Execution → Observation → Bool)
  /-- The capabilities that a commander's source asks of every scenario, none where it does not. -/
  commander_capabilities : Execution → Option (List String)

def owned (lib : Library) (db : Database) (project_id principal : String) : Except String Unit := do
  ensure (Projects.identifier lib.projects project_id) "IDENTIFIER_INVALID"
  ensure (Projects.identifier lib.projects principal) "IDENTIFIER_INVALID"
  ensure (db.environment.owners.get? project_id = some principal) "PROJECT_ACCESS_DENIED"

def Database.record (db : Database) (id : String) : Except String Record :=
  need (db.records.get? id) "QUALIFICATION_IN_PROGRESS_OR_UNKNOWN"

def latest (starts : List Start) (asked : Start → Bool) : Option Start := starts.reverse.find? asked

def Start.isOf (start : Start) (project_id : String) (ref : Ref) : Bool :=
  start.project_id = project_id && start.binding.profile_binding.registration.ref = ref

-- Starts

section
variable (w : World)

def executionOf (project_id : String) (suite_ref : Ref) (bound : Binding)
    (authentication : Authentication) (source : Source) (now seconds : Rat) (scenarios : List String) :
    Execution where
  qualification_id := w.observation_id
  project_id := project_id
  suite_ref := suite_ref
  profile_binding := bound
  authentication_source := authentication
  source := source
  started_at := now
  expires_at := now + seconds
  scenarios := scenarios.zipWith (fun scenario ids => ⟨scenario, ids.1, ids.2⟩) w.attempts

def startRuntimeTools (e : Environment) (project_id : String) (profile_ref suite_ref : Ref) :
    Except String StartBinding := do
  let source ← need (goSuite w suite_ref) "RUNTIME_QUALIFICATION_SOURCE_UNCONFIGURED"
  ensure (source.suite_ref = suite_ref) "QUALIFICATION_SUITE_UNSUPPORTED"
  let scope ← goScope source
  let bound ← e.binding project_id profile_ref
  ensure (w.validates bound) "PROFILE_IDENTITY_MISMATCH"
  let authentication ← currentLocked w e project_id bound.profile.auth_ref
  let now ← need w.now "QUALIFICATION_CLOCK_INVALID"
  let readonly := suite_ref = READONLY_GO_SUITE
  let execution := executionOf w project_id suite_ref bound authentication source now
    (if readonly then 600 else 420)
    (if readonly then ["clean_review", "defect_review", "denied_read"] else ["edit", "denied_read"])
  return ⟨scope, suite_ref, bound, .go execution w.controller_sha256⟩

def startCommanderPlanning (e : Environment) (project_id : String) (profile_ref : Ref) :
    Except String StartBinding := do
  let suite ← need w.commander_suite "COMMANDER_QUALIFICATION_SOURCE_UNCONFIGURED"
  let bound ← e.binding project_id profile_ref
  ensure (w.validates bound) "PROFILE_IDENTITY_MISMATCH"
  let authentication ← currentLocked w e project_id bound.profile.auth_ref
  let now ← need w.now "QUALIFICATION_CLOCK_INVALID"
  let execution := executionOf w project_id COMMANDER_SUITE bound authentication
    (suite.source bound authentication) now 420 ["legal_plan", "denied_tool"]
  return ⟨COMMANDER_SCOPE, COMMANDER_SUITE, bound, .commander execution w.controller_sha256⟩

def startLocalFixture (e : Environment) (project_id : String) (profile_ref : Ref) (root : String) :
    Except String StartBinding := do
  let bound ← e.binding project_id profile_ref
  let profile := bound.profile
  ensure (profile.runtime_kind = "fixture-runtime" && profile.runtime_version = "1" &&
    profile.model_id = "fixture-model" && profile.auth_mode = "none" &&
    profile.billing_path = "subscription_only" && profile.native_settings = "\x7b\x7d" &&
    profile.required_permissions.contains "fixture-tools" &&
    profile.required_permissions.all (· = "fixture-tools") && w.inside bound.repository root)
    "QUALIFICATION_SOURCE_UNSUPPORTED"
  return ⟨"local_fixture", LOCAL_SUITE, bound, .fixture (w.runtime root)⟩

def startBinding (e : Environment) : Request → Except String StartBinding
  | .runtimeTools project_id profile_ref suite_ref _ => startRuntimeTools w e project_id profile_ref suite_ref
  | .commanderPlanning project_id profile_ref _ => startCommanderPlanning w e project_id profile_ref
  | .localFixture project_id profile_ref fixture_root _ => startLocalFixture w e project_id profile_ref fixture_root

/-- The root of a fixture is known by the path that it resolves to. -/
def Request.resolved : Request → Except String Request
  | .localFixture project_id profile_ref fixture_root seconds => do
    let root ← w.safe_root fixture_root
    ensure (w.allowed root) "FIXTURE_ROOT_OUTSIDE_PROJECT_ROOTS"
    return .localFixture project_id profile_ref root seconds
  | request => return request

/-- The transaction that a command begins with: a record, or a start that was not there. -/
def begin (lib : Library) (w : World) (db : Database) (call : Call) : Except String (Record ⊕ Start) := do
  ensure (Projects.identifier lib.projects call.command_key) "IDENTIFIER_INVALID"
  let (project_id, _, seconds) := call.request.parts
  ensure (1 ≤ seconds && seconds ≤ 86400) "QUALIFICATION_VALIDITY_INVALID"
  let request ← call.request.resolved w
  owned lib db project_id call.principal
  match db.starts.find? fun s => s.call.principal = call.principal && s.call.command_key = call.command_key with
  | some previous =>
    ensure (previous.call.request = request) "IDEMPOTENCY_CONFLICT"
    return .inl (← db.record previous.id)
  | none =>
    let binding ← startBinding w db.environment request
    ensure (db.starts.all (·.id ≠ w.observation_id)) ""
    return .inr ⟨w.observation_id, { call with request := request }, binding⟩

-- Records

/-- What both guards of a start ask: it has no record, stands, is in time, and is the newest. -/
def standing (db : Database) (execution : Execution) (asked : Start → Bool) : Except String Unit := do
  let id := execution.qualification_id
  ensure (db.records.get? id).isNone "QUALIFICATION_ALREADY_COMPLETED"
  ensure (db.revocations.get? id).isNone "QUALIFICATION_REVOKED"
  let now ← need w.now "QUALIFICATION_CLOCK_INVALID"
  ensure (execution.started_at ≤ now && now < execution.expires_at) "QUALIFICATION_EXPIRED"
  ensure ((latest db.starts asked).all (·.id = id)) "QUALIFICATION_SUPERSEDED"

def current (db : Database) (execution : Execution) (source : Binding → Authentication → Option Source) :
    Except String Unit := do
  let bound := execution.profile_binding
  let binding ← db.environment.binding execution.project_id bound.registration.ref
  ensure (binding = bound) "PROFILE_IDENTITY_MISMATCH"
  let authentication ← currentLocked w db.environment execution.project_id bound.profile.auth_ref
  ensure (authentication = execution.authentication_source) "AUTHENTICATION_SOURCE_MISMATCH"
  ensure (source binding authentication = some execution.source) "QUALIFICATION_RUNTIME_MISMATCH"

def inLease (execution : Execution) : Except String Unit := do
  let now ← need w.later "QUALIFICATION_CLOCK_INVALID"
  ensure (execution.started_at ≤ now && now < execution.expires_at) "QUALIFICATION_EXPIRED"

def reviewerCurrentLocked (db : Database) (start : Start) (execution : Execution) : Except String Unit := do
  let row ← need (db.starts.find? (·.id = start.id)) "QUALIFICATION_START_MISSING"
  ensure (row.binding.origin = .go execution w.controller_sha256 && execution.suite_ref = READONLY_GO_SUITE)
    "QUALIFICATION_SOURCE_CHANGED"
  let binding := row.binding
  standing w db execution fun s => s.isOf start.project_id binding.profile_binding.registration.ref &&
    s.binding.qualification_scope = binding.qualification_scope && s.binding.suite_ref = binding.suite_ref
  current w db execution fun _ _ => w.reviewer_suite
  inLease w execution

def commanderCurrentLocked (db : Database) (start : Start) (execution : Execution) : Except String Unit := do
  let row ← need (db.starts.find? (·.id = start.id)) "QUALIFICATION_START_CHANGED"
  ensure (row.binding.origin = start.binding.origin) "QUALIFICATION_START_CHANGED"
  let bound := execution.profile_binding
  standing w db execution fun s => s.isOf start.project_id bound.registration.ref &&
    s.binding.qualification_scope = COMMANDER_SCOPE && s.binding.suite_ref = COMMANDER_SUITE
  ensure bound.registration.enabled "PROFILE_IDENTITY_MISMATCH"
  let suite ← need w.commander_suite "COMMANDER_QUALIFICATION_SOURCE_UNCONFIGURED"
  current w db execution fun bound authentication => some (suite.source bound authentication)
  inLease w execution

end

def recordOf (start : Start) (binding : RecordBinding) (now : Rat) (observation : Observation) : Record where
  id := start.id
  project_id := start.project_id
  principal := start.call.principal
  status := observation.status
  qualification_scope := start.binding.qualification_scope
  suite_ref := start.binding.suite_ref
  provenance := "fixture"
  binding := binding
  observed_at := now
  valid_until := now + start.call.request.parts.2.2
  observation := observation
  reason_codes := observation.reason_codes
  commander_facts := none

def Record.failed (record : Record) (code : String) : Record :=
  { record with status := "failed", reason_codes := record.reason_codes ++ [code] }

def Record.unless (record : Record) (passed : Bool) (code : String) : Record :=
  if passed then record else record.failed code

/-- The suites that have evidence of their own pass with it only. -/
def Record.evidenced (record : Record) (lib : Library) (execution : Execution) : Record :=
  if execution.suite_ref = PROJECTED_GO_SUITE then
    record.unless (lib.projected_observation_passed execution record.observation)
      "PROJECTED_EXECUTOR_EVIDENCE_INCOMPLETE"
  else if execution.suite_ref = READONLY_GO_SUITE then
    record.unless (lib.readonly_observation_passed execution record.observation)
      "READONLY_REVIEWER_EVIDENCE_INCOMPLETE"
  else
    record

section
variable (lib : Library) (w : World) (db : Database)

def recordRuntimeTools (start : Start) (execution : Execution)
    (controller_sha256 : String) (now : Rat) (observation : Observation) : Record :=
  let unchanged : Except String Unit := do
    ensure (w.controller_sha256 = controller_sha256) "QUALIFICATION_RUNTIME_MISMATCH"
    current w db execution fun _ _ => goSuite w execution.suite_ref
    ensure (execution.started_at ≤ now) "QUALIFICATION_CLOCK_INVALID"
    if execution.suite_ref = READONLY_GO_SUITE then reviewerCurrentLocked w db start execution
  let record := recordOf start (.start start.binding) now observation
  let record := { record with
    provenance := if isFixture record.qualification_scope then "fixture" else "imported_observation" }
  let record := record.unless unchanged.toBool "QUALIFICATION_SOURCE_CHANGED"
  record.evidenced lib execution

def Observation.official (observation : Observation) : Bool :=
  observation.status = "passed" && observation.scenarios.length = 2 &&
    observation.scenarios.all fun item => item.observation_origin = "official_go" && item.status = "passed"

def Record.withFacts (record : Record) (execution : Execution) (capabilities : Option (List String)) : Record :=
  match capabilities with
  | some capabilities =>
    if record.status = "passed" then
      let facts : ProfileFacts := ⟨execution.profile_binding.profile, "1.18.29", ["commander"], [], none,
        "controller", "bounded_calls", "imported_observation", record.id, record.observed_at, record.valid_until⟩
      { record with commander_facts := some ⟨facts, capabilities, execution.source⟩ }
    else record
  | none => record

def recordCommanderPlanning (start : Start) (execution : Execution)
    (now : Rat) (observation : Observation) : Record :=
  let fixture := ["c_fixed_suite_test_double", "http_fixture"].contains execution.source.observation_origin
  let complete := !fixture && observation.official
  let capabilities := if complete then lib.commander_capabilities execution else none
  let invalid := "COMMANDER_PROBE_SOURCE_INVALID"
  let observation := if complete && capabilities.isNone then
    { observation with reason_codes := (observation.reason_codes ++ [invalid]).eraseDups } else observation
  let record := recordOf start (.start start.binding) now observation
  let record := { record with
    status := if fixture then observation.status else if capabilities.isSome then "passed" else "failed"
    provenance := if fixture then "fixture" else "official" }
  let record := record.unless (commanderCurrentLocked w db start execution).toBool "COMMANDER_SOURCE_CHANGED"
  record.withFacts execution capabilities

def recordLocalFixture (db : Database) (start : Start) (runtime : String) (now : Rat) (observation : Observation) :
    Except String Record := do
  let bound := start.binding.profile_binding
  let found ← db.environment.binding start.project_id bound.registration.ref
  let status := if observation.checks.all id && found = bound then "passed" else "failed"
  return { recordOf start (.fixture bound runtime) now observation with status := status }

def complete (start : Start) (observation : Observation) : Except String Record := do
  let now ← need w.now "QUALIFICATION_CLOCK_INVALID"
  owned lib db start.project_id start.call.principal
  ensure (db.records.get? start.id).isNone ""
  match start.binding.origin with
  | .go execution controller_sha256 => return recordRuntimeTools lib w db start execution controller_sha256 now observation
  | .commander execution _ => return recordCommanderPlanning lib w db start execution now observation
  | .fixture runtime => recordLocalFixture db start runtime now observation

structure Revocation where
  (project_id observation_id principal reason : String)

def revoke (r : Revocation) : Except String Database := do
  ensure (Projects.identifier lib.projects r.reason) "IDENTIFIER_INVALID"
  ensure (Projects.identifier lib.projects r.observation_id) "IDENTIFIER_INVALID"
  owned lib db r.project_id r.principal
  let row ← need (db.starts.find? (·.id = r.observation_id)) "QUALIFICATION_IN_PROGRESS_OR_UNKNOWN"
  ensure (row.project_id = r.project_id) "QUALIFICATION_PROJECT_MISMATCH"
  let now ← need w.now "QUALIFICATION_CLOCK_INVALID"
  if (db.revocations.get? row.id).isSome then
    return db
  else
    return { db with revocations := db.revocations.put row.id (r.principal, r.reason, now) }

end

end Karajan.Qualifying
