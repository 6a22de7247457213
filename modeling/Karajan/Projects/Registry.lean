import Karajan.Lib.Check
import Karajan.Lib.Dict
import Karajan.Lib.Json
import Karajan.Lib.Runs

/-!
# Projects

The rows of the project registry: a project with what is configured of it, the
previews that were made of a configuration, the catalog that is in effect, the
versions that rulebooks are bound to, and the execution policies. A field that
can only have one value is left out.
-/

namespace Karajan.Projects

-- Documents

structure Issue where
  (code path : String)

/-- A rulebook as it is compiled, with what is left to correct. -/
structure Compiled where
  (rulebook_sha256 compiler_revision : String)
  document : Json
  (warnings issues : List Issue)

structure Content where
  (resources approved_profile_refs : Json)

structure Policy where
  id : String
  revision : Nat
  configuration_digest : String
  /-- The texts of its parts that have a revision of their own, by kind, id and revision. -/
  components : List ((String × String × Nat) × String)

def isV2 (request : Json) : Bool :=
  match request with
  | .object fields => (field fields "schema_version").str? = some "karajan.execution-policy.v2"
  | .null | .bool _ | .int _ | .float _ | .str _ | .list _ => false

structure Validator where
  (revision fixed_rulebook_sha256 : String)
deriving DecidableEq

/-- The code that checks configurations, as it is deployed when a command uses it. -/
structure Build where
  compiler_identity : String
  validator : Validator
  validate_configuration : Json → List Issue
  compile_rulebook : Json → Except String Compiled
  /-- The draft of a configuration without credentials, none where it does not parse. -/
  draft : Json → Option Content
  resource_catalog_issues : Content → List Issue
  parse_policy : Json → Except String Policy
  policy_error : Policy → Json → Option String

def Content.json (content : Content) : Json :=
  .object [("resources", content.resources), ("approved_profile_refs", content.approved_profile_refs)]

def rulebookConfiguration (document resources approved_profile_refs : Json) : Json :=
  .object [("schema_version", .str "karajan.project-config.v1"), ("rulebook", document),
    ("resources", resources), ("approved_profile_refs", approved_profile_refs)]

-- Rows

structure Repository where
  (root base_ref base_sha : String)
deriving DecidableEq

structure Configured where
  revision : Nat
  status : String
  (digest preview_id : Option String)

structure Publication where
  (publication_id project_id : String)
  (project_revision configuration_revision : Nat)
  rulebook_id : String
  rulebook_revision : Int
  (rulebook_sha256 preview_id principal : String)
  at_time : Rat

structure Project where
  id : String
  revision : Nat
  name : String
  repository : Repository
  target_branch : String
  allowed_target_branches : List String
  configuration : Configured
  published_rulebook : Option Publication

structure CatalogBinding where
  revision : Nat
  digest : Option String
deriving DecidableEq

structure Catalog where
  revision : Nat
  digest : Option String
  content : Content

def Catalog.binding (catalog : Catalog) : CatalogBinding := ⟨catalog.revision, catalog.digest⟩

/-- Who made a preview, how long it may be applied, and what it was made against. Previews from
before decisions were reviewed have none. -/
structure Review where
  principal : String
  expires_at : Rat
  compiler_identity : String
  catalog_binding : CatalogBinding

inductive PreviewKind
  | configuration (status : String) (validator : Validator)
  | rulebook (compile_issues : List Issue) (rulebook_sha256 : Option String)

structure Preview where
  kind : PreviewKind
  (preview_id project_id : String)
  project_revision : Nat
  configuration_digest : String
  issues : List Issue
  (can_save_draft can_publish : Bool)
  review : Option Review
  identity_issue : Option String

structure PreviewRow where
  preview : Preview
  configuration : Option Json

structure Version where
  (rulebook_sha256 compiler_revision compiler_identity : String)
  executable : Json

structure Registered where
  policy : Policy
  (digest registered_by : String)
  registered_at : Rat

-- Requests

structure ProjectUpdate where
  (name base_ref target_branch : String)
  allowed_target_branches : List String

structure ProjectCreate extends ProjectUpdate where
  repository_path : String

inductive Request
  | create (request : ProjectCreate)
  | update (project_id : String) (expected_revision : Int) (request : ProjectUpdate)
  | preview (project_id : String) (configuration : Json)
  | apply (project_id preview_id : String) (expected_revision : Int)
  | rulebookPreview (project_id : String) (document : Json) (expected_revision : Int)
  | rulebookPublish (project_id preview_id : String) (expected_revision : Int)
  | executionPolicy (project_id : String) (request : Json)

structure Library where
  (isspace isprintable : Char → Bool)
  digest : Json → String
  policy_digest : Policy → String
  identity : Request → String

def identifier (lib : Library) (text : String) : Bool :=
  0 < text.length && text.length ≤ 256 && text.toList.all fun c => !lib.isspace c && lib.isprintable c

inductive Result
  | project (project : Project)
  | preview (preview : Preview)
  | publication (publication : Publication)
  | policy (registered : Registered)

structure CommandRow where
  digest : String
  result : Result

structure Database where
  projects : Dict String Project
  owners : Dict String String
  commands : Dict (String × String) CommandRow
  previews : Dict String PreviewRow
  catalogs : Dict String Catalog
  versions : Dict (String × String × Int) Version
  conflicts : List (String × String × Int)
  publications : List Publication
  policies : Dict (String × String × Nat) Registered

structure Fault where
  code : String
  current_revision : Option Nat

def Fault.of (code : String) : Fault := ⟨code, none⟩

def Fault.crashed : Fault := .of ""

-- Commands on projects

open Check

structure World where
  now : Rat
  id : String
  ttl : Rat
  build : Build
  repository : Except String Repository

structure Call where
  request : Request
  (principal key : String)

variable (lib : Library) (w : World)

-- Rulebooks and catalogs

def compileDocument (document : Json) : Option Compiled × List Issue :=
  match document.object? with
  | none => (none, [⟨"RULEBOOK_REQUIRED", "rulebook"⟩])
  | some _ =>
    match w.build.compile_rulebook document with
    | .ok compiled => (some compiled, compiled.issues)
    | .error code => (none, [⟨code, "rulebook"⟩])

def versionKey (project_id : String) (document : Json) : Option (String × String × Int) := do
  let fields ← document.object?
  let id ← (field fields "id").str?
  let revision ← (field fields "revision").int?
  return (project_id, id, revision)

section
variable (db : Database)

def guardIdentity (project_id : String) (document : Json) (compiled : Option Compiled) : Except Fault Unit :=
  match versionKey project_id document with
  | none => .ok ()
  | some key => do
    ensure (key ∉ db.conflicts) (.of "LEGACY_RULEBOOK_IDENTITY_CONFLICT")
    match db.versions.get? key with
    | none => return ()
    | some version =>
      ensure (compiled.any (·.rulebook_sha256 = version.rulebook_sha256)) (.of "RULEBOOK_REVISION_CONFLICT")

def executable : Json → Json
  | .object fields => .object (fields.filter fun f => f.1 ∉ ["id", "revision", "description", "status"])
  | document => document

def newVersion (compiled : Compiled) : Version where
  rulebook_sha256 := compiled.rulebook_sha256
  compiler_revision := compiled.compiler_revision
  compiler_identity := w.build.compiler_identity
  executable := executable compiled.document

def bindVersion (project_id : String) (document : Json) (compiled : Compiled) :
    Except Fault ((String × String × Int) × Version × Dict (String × String × Int) Version) := do
  guardIdentity db project_id document (some compiled)
  let key ← need (versionKey project_id document) .crashed
  match db.versions.get? key with
  | some version => return (key, version, db.versions)
  | none =>
    let version := newVersion w compiled
    return (key, version, db.versions.put key version)

def effectiveCatalog (catalogs : Dict String Catalog) (project_id : String) : Catalog :=
  (catalogs.get? project_id).getD ⟨0, none, .null, .list []⟩

def catalogContent (configuration : Json) : Option Content :=
  match w.build.draft configuration with
  | none => none
  | some content =>
    match content.resources with
    | .null => none
    | _ => if (w.build.resource_catalog_issues content).isEmpty then some content else none

def applyCatalog (catalogs : Dict String Catalog) (project_id : String) (configuration : Json) :
    Dict String Catalog :=
  match catalogContent w configuration with
  | none => catalogs
  | some content =>
    let previous := effectiveCatalog catalogs project_id
    let digest := lib.digest content.json
    if previous.digest = some digest then catalogs
    else catalogs.put project_id ⟨previous.revision + 1, some digest, content⟩

-- Checks

def checkIdentifier (text : String) (code : String) : Except Fault Unit :=
  ensure (identifier lib text) (.of code)

def replay (call : Call) : Except Fault (Option Result) := do
  checkIdentifier lib call.principal "COMMAND_IDENTITY_INVALID"
  checkIdentifier lib call.key "COMMAND_IDENTITY_INVALID"
  match db.commands.get? (call.principal, call.key) with
  | none => return none
  | some row => do
    ensure (row.digest = lib.identity call.request) (.of "IDEMPOTENCY_CONFLICT")
    return some row.result

def current (project_id : String) (revision : Int) : Except Fault Project := do
  let project ← need (db.projects.get? project_id) (.of "PROJECT_NOT_FOUND")
  ensure (revision = project.revision) ⟨"REVISION_CONFLICT", some project.revision⟩
  return project

def requireOwner (project_id principal : String) : Except Fault Unit := do
  let owner ← need (db.owners.get? project_id) (.of "PROJECT_OWNER_UNRESOLVED")
  ensure (owner = principal) (.of "USER_DECISION_REQUIRED")

def checkPreview (project_id : String) (preview : Preview) (principal : String) : Except Fault Unit := do
  let review ← need preview.review (.of "PREVIEW_REVIEW_REQUIRED")
  ensure (review.principal = principal) (.of "PREVIEW_OWNER_MISMATCH")
  ensure (w.now < review.expires_at) (.of "PREVIEW_EXPIRED")
  ensure (review.compiler_identity = w.build.compiler_identity) (.of "PREVIEW_COMPILER_CHANGED")
  ensure (review.catalog_binding = (effectiveCatalog db.catalogs project_id).binding)
    (.of "PREVIEW_CATALOG_CHANGED")
  match preview.identity_issue with
  | some code => .error (.of code)
  | none => return ()

def findPreview (project_id preview_id : String) : Option PreviewRow :=
  (db.previews.get? preview_id).filter (·.preview.project_id = project_id)

def storedConfiguration (project_id : String) (project : Project) : Option Json := do
  let preview_id ← project.configuration.preview_id
  let row ← findPreview db project_id preview_id
  row.configuration

-- Previews

def storable (issues : List Issue) : Bool :=
  issues.all fun issue => issue.code ∉ ["CREDENTIAL_VALUE_FORBIDDEN", "CONFIGURATION_SCHEMA_INVALID"]

def rulebookOf (configuration : Json) : Json :=
  match configuration with
  | .object fields =>
    match field fields "rulebook" with
    | .object rulebook => .object rulebook
    | _ => .object []
  | _ => .object []

/-- A preview is blocked whose rulebook has an identity that executes as something else. -/
def Preview.blocked (preview : Preview) (code : String) : Preview :=
  { preview with
    identity_issue := some code
    issues := preview.issues ++ [⟨code, "rulebook.revision"⟩]
    can_save_draft := false
    can_publish := false
    kind := match preview.kind with
      | .configuration _ validator => .configuration "draft" validator
      | .rulebook compile_issues rulebook_sha256 => .rulebook compile_issues rulebook_sha256 }

def previewIdentity (project_id : String) (preview : Preview) (document : Json)
    (compiled : Option Compiled) : Preview :=
  if preview.can_save_draft then
    match guardIdentity db project_id document compiled with
    | .ok _ => preview
    | .error fault => preview.blocked fault.code
  else preview

def configurationPreview (project_id : String) (revision : Nat) (configuration : Json) (principal : String)
    (compiled : Option Compiled) (compile_issues : List Issue) : Preview :=
  let issues := w.build.validate_configuration configuration
  { kind := .configuration (if issues.isEmpty then "offline_valid" else "draft") w.build.validator
    preview_id := w.id
    project_id
    project_revision := revision
    configuration_digest := lib.digest configuration
    issues
    can_save_draft := storable issues
    can_publish := storable issues && compiled.isSome && compile_issues.isEmpty
    review := some ⟨principal, w.now + w.ttl, w.build.compiler_identity, ⟨0, none⟩⟩
    identity_issue := none }

def rulebookPreview (project_id : String) (project : Project) (catalog : Catalog) (document configuration : Json)
    (principal : String) : Preview × Option Compiled :=
  let issues := w.build.validate_configuration configuration
  let (compiled, compile_issues) := compileDocument w document
  ({ kind := .rulebook compile_issues (compiled.map (·.rulebook_sha256))
     preview_id := w.id
     project_id
     project_revision := project.revision
     configuration_digest := lib.digest configuration
     issues
     can_save_draft := storable issues
     can_publish := storable issues && compiled.isSome && compile_issues.isEmpty
     review := some ⟨principal, w.now + w.ttl, w.build.compiler_identity, catalog.binding⟩
     identity_issue := none }, compiled)

def Preview.bind (preview : Preview) (catalog : Catalog) : Preview :=
  { preview with review := preview.review.map fun review => { review with catalog_binding := catalog.binding } }

-- Transactions

/-- What a command has read and computed before its next transaction. -/
inductive Stage
  | asked
  | located (root : String)
  | read (revision : Nat)
  | drafted (preview : Preview) (configuration document : Json) (compiled : Option Compiled)

inductive Progress
  | pending (stage : Stage)
  | done (result : Result) (db : Database)

def Database.record (call : Call) (result : Result) : Database :=
  { db with commands := db.commands.put (call.principal, call.key) ⟨lib.identity call.request, result⟩ }

/-- A transaction that the record of its command answers, where it has one. -/
def unlessReplayed (call : Call) (transaction : Except Fault Progress) : Except Fault Progress := do
  match ← replay lib db call with
  | some result => return .done result db
  | none => transaction

open Database (record)

def insertProject (call : Call) (request : ProjectCreate) : Except Fault Progress := do
  let repository ← w.repository.mapError Fault.of
  unlessReplayed lib db call do
    ensure (!db.projects.contains w.id && !db.owners.contains w.id) .crashed
    let project : Project := {
      id := w.id
      revision := 1
      name := request.name
      repository
      target_branch := request.target_branch
      allowed_target_branches := request.allowed_target_branches
      configuration := ⟨0, "unconfigured", none, none⟩
      published_rulebook := none }
    return .done (.project project) (record lib { db with
      projects := db.projects.put w.id project
      owners := db.owners.put w.id call.principal } call (.project project))

def saveUpdate (call : Call) (project_id : String) (expected_revision : Int)
    (request : ProjectUpdate) : Except Fault Progress := do
  let repository ← w.repository.mapError Fault.of
  unlessReplayed lib db call do
    let project ← current db project_id expected_revision
    let project := { project with
      name := request.name
      target_branch := request.target_branch
      allowed_target_branches := request.allowed_target_branches
      repository
      revision := project.revision + 1 }
    return .done (.project project)
      (record lib { db with projects := db.projects.put project_id project } call (.project project))

def draftPreview (call : Call) (project_id : String) (configuration : Json) (revision : Nat) :
    Except Fault Progress := do
  requireOwner db project_id call.principal
  let document := rulebookOf configuration
  let (compiled, compile_issues) := compileDocument w document
  return .pending (.drafted
    (configurationPreview lib w project_id revision configuration call.principal compiled compile_issues)
    configuration document compiled)

def insertPreview (call : Call) (preview : Preview) (configuration : Json) : Except Fault Progress := do
  ensure (!db.previews.contains preview.preview_id) .crashed
  let row : PreviewRow := ⟨preview, if preview.can_save_draft then some configuration else none⟩
  return .done (.preview preview) (record lib { db with
    previews := db.previews.put preview.preview_id row } call (.preview preview))

def storePreview (call : Call) (project_id : String) (preview : Preview)
    (configuration document : Json) (compiled : Option Compiled) : Except Fault Progress :=
  unlessReplayed lib db call do
    let _ ← current db project_id preview.project_revision
    let preview := preview.bind (effectiveCatalog db.catalogs project_id)
    insertPreview lib db call (previewIdentity db project_id preview document compiled) configuration

def draftRulebook (call : Call) (project_id : String) (document : Json) (expected_revision : Int) :
    Except Fault Progress :=
  unlessReplayed lib db call do
    let project ← current db project_id expected_revision
    requireOwner db project_id call.principal
    let catalog := effectiveCatalog db.catalogs project_id
    let configuration :=
      rulebookConfiguration document catalog.content.resources catalog.content.approved_profile_refs
    let (preview, compiled) := rulebookPreview lib w project_id project catalog document configuration call.principal
    return .pending (.drafted preview configuration document compiled)

def storeRulebook (call : Call) (project_id : String) (expected_revision : Int)
    (preview : Preview) (configuration document : Json) (compiled : Option Compiled) : Except Fault Progress :=
  unlessReplayed lib db call do
    let _ ← current db project_id expected_revision
    checkPreview w db project_id preview call.principal
    insertPreview lib db call (previewIdentity db project_id preview document compiled) configuration

/-- The stored configuration, whose digest is still the one that the preview shows. -/
def unchangedContent (preview : Preview) (configuration : Json) : Except Fault Unit :=
  ensure (lib.digest configuration = preview.configuration_digest) (.of "PREVIEW_CONTENT_CHANGED")

def unchangedPolicy (preview : Preview) : Except Fault Unit :=
  match preview.kind with
  | .configuration _ validator => ensure (validator = w.build.validator) (.of "PREVIEW_POLICY_CHANGED")
  | .rulebook .. => .ok ()

def PreviewKind.status : PreviewKind → String
  | .configuration status _ => status
  | .rulebook .. => "draft"

/-- The version that a configuration binds, which is valid and compiles. -/
def bindApplied (project_id status : String) (document : Json) :
    Except Fault (Dict (String × String × Int) Version) :=
  match status = "offline_valid" && (compileDocument w document).2.isEmpty, (compileDocument w document).1 with
  | true, some compiled => do
    let (_, _, versions) ← bindVersion w db project_id document compiled
    return versions
  | _, _ => return db.versions

def applyConfiguration (call : Call) (project_id preview_id : String) (expected_revision : Int) :
    Except Fault Progress :=
  unlessReplayed lib db call do
    let project ← current db project_id expected_revision
    requireOwner db project_id call.principal
    let row ← need (findPreview db project_id preview_id) (.of "PREVIEW_NOT_FOUND")
    let preview := row.preview
    checkPreview w db project_id preview call.principal
    ensure preview.can_save_draft (.of "CONFIGURATION_NOT_STORABLE")
    let configuration ← need row.configuration (.of "CONFIGURATION_NOT_STORABLE")
    unchangedPolicy w preview
    ensure (preview.project_revision = project.revision) ⟨"PREVIEW_STALE", some project.revision⟩
    unchangedContent lib preview configuration
    let fields ← need configuration.object? .crashed
    let document := field fields "rulebook"
    guardIdentity db project_id document (compileDocument w document).1
    let status := preview.kind.status
    let versions ← bindApplied w db project_id status document
    let project := { project with
      revision := project.revision + 1
      configuration := ⟨project.configuration.revision + 1, status, some preview.configuration_digest, some preview_id⟩ }
    return .done (.project project) (record lib { db with
      projects := db.projects.put project_id project
      versions
      catalogs := applyCatalog lib w db.catalogs project_id configuration } call (.project project))

/-- The preview is one of a rulebook that can be published, as what it showed. -/
def publishable (preview : Preview) : Except Fault (Option String) :=
  match preview.kind with
  | .rulebook _ rulebook_sha256 => do
    ensure preview.can_publish (.of "RULEBOOK_NOT_PUBLISHABLE")
    return rulebook_sha256
  | .configuration .. => .error (.of "RULEBOOK_NOT_PUBLISHABLE")

def publishRulebook (call : Call) (project_id preview_id : String) (expected_revision : Int) :
    Except Fault Progress :=
  unlessReplayed lib db call do
    let project ← current db project_id expected_revision
    requireOwner db project_id call.principal
    let row ← need (findPreview db project_id preview_id) (.of "PREVIEW_NOT_FOUND")
    let preview := row.preview
    checkPreview w db project_id preview call.principal
    let rulebook_sha256 ← publishable preview
    let configuration ← need row.configuration (.of "RULEBOOK_NOT_PUBLISHABLE")
    ensure (preview.project_revision = project.revision) ⟨"PREVIEW_STALE", some project.revision⟩
    unchangedContent lib preview configuration
    let fields ← need configuration.object? .crashed
    let document ← need (findField fields "rulebook") .crashed
    let compiled ← need (compileDocument w document).1 (.of "PREVIEW_COMPILER_CHANGED")
    ensure ((compileDocument w document).2.isEmpty && some compiled.rulebook_sha256 = rulebook_sha256)
      (.of "PREVIEW_COMPILER_CHANGED")
    let (key, version, versions) ← bindVersion w db project_id document compiled
    let publication : Publication := {
      publication_id := w.id
      project_id
      project_revision := project.revision + 1
      configuration_revision := project.configuration.revision + 1
      rulebook_id := key.2.1
      rulebook_revision := key.2.2
      rulebook_sha256 := version.rulebook_sha256
      preview_id
      principal := call.principal
      at_time := w.now }
    let project := { project with
      revision := project.revision + 1
      configuration := ⟨project.configuration.revision + 1,
        if preview.issues.isEmpty then "offline_valid" else "draft",
        some preview.configuration_digest, some preview_id⟩
      published_rulebook := some publication }
    return .done (.publication publication) (record lib { db with
      projects := db.projects.put project_id project
      versions
      catalogs := applyCatalog lib w db.catalogs project_id configuration
      publications := db.publications ++ [publication] } call (.publication publication))

-- Execution policies

def qualificationPending (project : Project) (configuration : Option Json) : Bool :=
  project.configuration.status = "draft" &&
    match configuration with
    | some (.object fields) =>
      let issues := w.build.validate_configuration (.object fields)
      !issues.isEmpty && issues.all (·.code = "CAPABILITY_NOT_PASSED")
    | _ => false

def validatePolicy (request configuration : Json) : Except Fault Policy := do
  let policy ← (w.build.parse_policy request).mapError Fault.of
  ensure (policy.configuration_digest = lib.digest configuration) (.of "EXECUTION_POLICY_CONFIGURATION_CHANGED")
  match w.build.policy_error policy configuration with
  | some code => .error (.of code)
  | none => return policy

def policyComponents (policy : Policy) : Dict (String × String × Nat) String := .ofList policy.components

def agrees (a b : Policy) : Bool :=
  (policyComponents a).entries.all fun (key, text) => ((policyComponents b).get? key).all (· = text)

def latestPolicy (project_id id : String) : Nat :=
  ((db.policies.keys.filter fun key => key.1 = project_id && key.2.1 = id).map (·.2.2)).foldl max 0

def registerExecutionPolicy (call : Call) (project_id : String) (request : Json) : Except Fault Progress :=
  unlessReplayed lib db call do
    requireOwner db project_id call.principal
    let project ← need (db.projects.get? project_id) .crashed
    let stored := storedConfiguration db project_id project
    ensure (project.configuration.status = "offline_valid" ||
      isV2 request && qualificationPending w project stored) (.of "CONFIGURATION_NOT_READY")
    let configuration ← need stored .crashed
    let policy ← validatePolicy lib w request configuration
    ensure (policy.revision = latestPolicy db project_id policy.id + 1) (.of "EXECUTION_POLICY_REVISION_CONFLICT")
    ensure (db.policies.entries.all fun (key, old) => key.1 ≠ project_id || agrees old.policy policy)
      (.of "EXECUTION_POLICY_COMPONENT_REVISION_CONFLICT")
    ensure (!db.policies.contains (project_id, policy.id, policy.revision)) .crashed
    let registered : Registered := ⟨policy, lib.policy_digest policy, call.principal, w.now⟩
    return .done (.policy registered) (record lib { db with
      policies := db.policies.put (project_id, policy.id, policy.revision) registered } call (.policy registered))

-- Commands

def ask (call : Call) : Except Fault Progress :=
  match call.request with
  | .create _ => unlessReplayed lib db call (return .pending .asked)
  | .update project_id .. | .preview project_id _ => do
    checkIdentifier lib project_id "IDENTIFIER_INVALID"
    unlessReplayed lib db call (return .pending .asked)
  | .apply project_id preview_id expected_revision => do
    checkIdentifier lib project_id "IDENTIFIER_INVALID"
    checkIdentifier lib preview_id "IDENTIFIER_INVALID"
    applyConfiguration lib w db call project_id preview_id expected_revision
  | .rulebookPreview project_id document expected_revision => do
    checkIdentifier lib project_id "IDENTIFIER_INVALID"
    draftRulebook lib w db call project_id document expected_revision
  | .rulebookPublish project_id preview_id expected_revision => do
    checkIdentifier lib project_id "IDENTIFIER_INVALID"
    checkIdentifier lib preview_id "IDENTIFIER_INVALID"
    publishRulebook lib w db call project_id preview_id expected_revision
  | .executionPolicy project_id request => do
    checkIdentifier lib project_id "IDENTIFIER_INVALID"
    registerExecutionPolicy lib w db call project_id request

def advance (call : Call) (stage : Stage) : Except Fault Progress :=
  match call.request, stage with
  | .create request, .asked => insertProject lib w db call request
  | .update project_id _ _, .asked => do
    let project ← need (db.projects.get? project_id) (.of "PROJECT_NOT_FOUND")
    return .pending (.located project.repository.root)
  | .update project_id expected_revision request, .located _ =>
    saveUpdate lib w db call project_id expected_revision request
  | .preview project_id _, .asked => do
    let project ← need (db.projects.get? project_id) (.of "PROJECT_NOT_FOUND")
    return .pending (.read project.revision)
  | .preview project_id configuration, .read revision =>
    draftPreview lib w db call project_id configuration revision
  | .preview project_id _, .drafted preview configuration document compiled =>
    storePreview lib db call project_id preview configuration document compiled
  | .rulebookPreview project_id _ expected_revision, .drafted preview configuration document compiled =>
    storeRulebook lib w db call project_id expected_revision preview configuration document compiled
  | _, _ => .error .crashed

end

end Karajan.Projects
