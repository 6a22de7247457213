import Karajan.Projects.Registry

/-!
# Qualifications of profiles

A start commits before a suite is run, the record of what was observed commits
after it. Who reads the facts of a profile goes to the newest start for it, and
holds its record against the profile, the runtime and the credential as they are.
Where a document is only compared, its text stands for it.
-/

namespace Karajan.Qualifying

open Check

structure Ref where
  id : String
  revision : Nat
deriving DecidableEq

def LOCAL_SUITE : Ref := ⟨"fixed-local-fixture-qualification", 1⟩
def NATIVE_GO_SUITE : Ref := ⟨"opencode-go-native-read-edit-linux", 1⟩
def PROJECTED_GO_SUITE : Ref := ⟨"opencode-go-native-read-edit-linux", 2⟩
def READONLY_GO_SUITE : Ref := ⟨"opencode-go-readonly-review-linux", 1⟩
def COMMANDER_SUITE : Ref := ⟨"opencode-go-commander-planning-linux", 2⟩
def COMMANDER_SCOPE := "commander_planning.v1"
def PARSER_REVISION := "karajan.review-output-parser.v1"

-- Profiles

structure Profile where
  ref : Ref
  (auth_ref account_id channel_id billing_path runtime_kind runtime_version model_id : String)
  (auth_mode : String)
  native_suite_ref : Option Ref
  native_settings : String
  required_permissions : List String
  details : String
deriving DecidableEq

structure Registration where
  ref : Ref
  profile : Option Profile
  enabled : Bool
  details : String
deriving DecidableEq

structure Account where
  (id secret_ref details : String)
deriving DecidableEq

structure Channel where
  (id account_id billing_path : String)
  approved_data_destination : Bool
  details : String
deriving DecidableEq

structure Resources where
  profiles : List Registration
  accounts : List Account
  channels : List Channel

structure Catalog where
  resources : Option Resources
  approved_profile_refs : List Ref

/-- What a qualification is of. The profile is the one that is registered. -/
structure Binding where
  registration : Registration
  profile : Profile
  account : Account
  channel : Channel
  repository : Projects.Repository
deriving DecidableEq

structure Authentication where
  (project_id auth_ref generation source_id details : String)
deriving DecidableEq

/-- The tables of projects and credentials, which other commands write. -/
structure Environment where
  owners : Dict String String
  catalogs : Dict String Catalog
  repositories : Dict String Projects.Repository
  generations : Dict String Authentication
  current : Dict (String × String) String
  revoked : List String

def theOnly (l : List α) : Option α :=
  match l with
  | [x] => some x
  | _ => none

def Environment.binding (e : Environment) (project_id : String) (ref : Ref) : Except String Binding := do
  let catalog ← need (e.catalogs.get? project_id) "PROFILE_NOT_APPROVED"
  let resources ← need catalog.resources "PROFILE_NOT_APPROVED"
  ensure (catalog.approved_profile_refs.contains ref) "PROFILE_NOT_APPROVED"
  let registration ← need (theOnly (resources.profiles.filter (·.ref = ref))) "PROFILE_IDENTITY_MISSING"
  let profile ← need registration.profile "PROFILE_IDENTITY_MISSING"
  ensure (profile.ref = ref) "PROFILE_IDENTITY_MISMATCH"
  let mismatch := "PROFILE_CHANNEL_ACCOUNT_MISMATCH"
  let account ← need (theOnly (resources.accounts.filter (·.id = profile.account_id))) mismatch
  let channel ← need (theOnly (resources.channels.filter (·.id = profile.channel_id))) mismatch
  ensure (account.secret_ref = profile.auth_ref && channel.account_id = profile.account_id &&
    channel.billing_path = profile.billing_path && channel.approved_data_destination) mismatch
  return ⟨registration, profile, account, channel, ← need (e.repositories.get? project_id) ""⟩

-- Suites

structure Limits where
  (approved_input_tokens reserved_output_tokens operating_context_tokens fixed_margin : Nat)
  (ratio_margin_basis_points : Nat)
deriving DecidableEq

structure ProbeSpec where
  context : Option Limits
  parser_revision : String
  scenarios : List String
deriving DecidableEq

structure Source where
  suite_ref : Ref
  (schema_version observation_origin : String)
  qualification_scope : Option String
  probe_spec : Option ProbeSpec
  /-- The source of a commander names what it is made for. -/
  commander : Option (Binding × Authentication)
  details : String
deriving DecidableEq

def fixtureOf (scope origin : String) : String := if origin = "http_fixture" then scope ++ "_fixture" else scope

def isFixture (scope : String) : Bool := scope.endsWith "_fixture"

def goScope (source : Source) : Except String String := do
  let unsupported := "QUALIFICATION_SOURCE_UNSUPPORTED"
  let known := ["official_go", "http_fixture"].contains source.observation_origin
  if source.suite_ref = READONLY_GO_SUITE then
    let scope := fixtureOf "readonly_reviewer_tools" source.observation_origin
    let spec ← need source.probe_spec unsupported
    ensure (known && source.schema_version = "karajan.fixed-go-reviewer-suite-source.v1" &&
      source.qualification_scope = some scope && spec.parser_revision = PARSER_REVISION &&
      spec.scenarios = ["clean_review", "defect_review", "denied_read"] &&
      spec.context = some ⟨12288, 4096, 16384, 2048, 2000⟩) unsupported
    return scope
  else if source.suite_ref = PROJECTED_GO_SUITE then
    let scope := fixtureOf "projected_native_tools" source.observation_origin
    ensure (known && source.schema_version = "karajan.fixed-go-suite-source.v2" &&
      (source.probe_spec.bind (·.context)).isSome && source.qualification_scope = some scope) unsupported
    return scope
  else
    ensure (known && source.suite_ref = NATIVE_GO_SUITE) unsupported
    return fixtureOf "fixed_native_tools" source.observation_origin

/-- What is deployed for commanders: where its answers come from, and its code. -/
structure Commander where
  (observation_origin details : String)

def Commander.source (commander : Commander) (bound : Binding) (authentication : Authentication) : Source where
  suite_ref := COMMANDER_SUITE
  schema_version := "karajan.commander-qualification-source.v3"
  observation_origin := commander.observation_origin
  qualification_scope := some COMMANDER_SCOPE
  probe_spec := none
  commander := some (bound, authentication)
  details := commander.details

structure World where
  (now later : Option Rat)
  controller_sha256 : String
  (go_suite reviewer_suite : Option Source)
  commander_suite : Option Commander
  /-- The local file that a credential is read from, none where it cannot be. -/
  source_id : String → String → Option String
  /-- Whether the material of a generation is what was sealed. -/
  sealed : Authentication → Bool
  safe_root : String → Except String String
  allowed : String → Bool
  runtime : String → String
  /-- Whether the repository is in the fixture root, and is not that root. -/
  inside : Projects.Repository → String → Bool
  validates : Binding → Bool
  observation_id : String
  attempts : List (String × String)

def goSuite (w : World) (suite_ref : Ref) : Option Source :=
  if suite_ref = READONLY_GO_SUITE then w.reviewer_suite else w.go_suite

def currentLocked (w : World) (e : Environment) (project_id auth_ref : String) : Except String Authentication := do
  let generation ← need (e.current.get? (project_id, auth_ref)) "CREDENTIAL_GENERATION_NOT_FOUND"
  let record ← need (e.generations.get? generation) "CREDENTIAL_GENERATION_NOT_FOUND"
  ensure (record.project_id = project_id && record.auth_ref = auth_ref && record.generation = generation)
    "CREDENTIAL_RECORD_CHANGED"
  ensure (!e.revoked.contains generation) "CREDENTIAL_GENERATION_REVOKED"
  ensure (w.source_id project_id auth_ref = some record.source_id) "CREDENTIAL_SOURCE_CHANGED"
  ensure (w.sealed record) "CREDENTIAL_MATERIAL_CHANGED"
  return record

end Karajan.Qualifying
