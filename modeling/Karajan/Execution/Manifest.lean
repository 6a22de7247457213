import Karajan.Lib.Check
import Karajan.Lib.Json

/-!
# Launch material

What a host is given before it launches: the manifest of a model attempt or of
a check, the process to run, and the activation that authorizes one start.
-/

namespace Karajan.Execution

open Check

structure Library where
  whitespace : Char → Bool
  /-- The JSON text of a value with its keys sorted. -/
  encoded : Json → String
  sha256 : String → String

inductive Fault
  | contract
  | startKeyInvalid
  | processInvalid
  | startKeyPayloadMismatch
  | attemptAlreadyPrepared
  | attemptUnknown
  | preparedUnknown
  | controlFenceRegression
  | controlPreparedBindingMismatch
  | controlPreparedCancelled
  | controlPreparedRequired
  | controlAlreadyDifferent
  | activationExpiryInvalid
  | activationPayloadMismatch
  | activationNotCurrent
  | cancelInvalid
  | cancellationBindingMismatch
  | cancelKeyPayloadMismatch
  | resultEventPayloadMismatch
  | usageEventPayloadMismatch
  | usageSequenceChanged
  | captureExpectationUnpaired
  | captureStartRequired
  | captureStartBindingInvalid
  | capturePreparedBindingMismatch
  | captureFenceNotCurrent
  /-- The database refuses a row whose key is taken. -/
  | integrity
  /-- A row or a value that was expected is missing. -/
  | missing
  | raised (reason : String)

def Library.identifier (L : Library) (text : String) : Bool :=
  0 < text.length && text.length ≤ 256 && text.toList.all fun c => !L.whitespace c

def sha256Text (text : String) : Bool := text.length = 64 && text.toList.all fun c =>
    '0' ≤ c && c ≤ '9' || 'a' ≤ c && c ≤ 'f'

-- Manifests

inductive BillingPath
  | subscriptionOnly
  | apiCash
deriving DecidableEq

def BillingPath.text : BillingPath → String
  | .subscriptionOnly => "subscription_only"
  | .apiCash => "api_cash"

structure Binding where
  (model_id channel_id account_id runtime_kind runtime_version auth_mode : String)
  billing_path : BillingPath
  native_settings : Fields

namespace Binding

def valid (L : Library) (b : Binding) : Bool :=
  [b.model_id, b.channel_id, b.account_id, b.runtime_kind, b.runtime_version, b.auth_mode].all
    L.identifier

def document (b : Binding) : Json := .object [("model_id", .str b.model_id), ("channel_id", .str b.channel_id),
    ("account_id", .str b.account_id), ("runtime_kind", .str b.runtime_kind),
    ("runtime_version", .str b.runtime_version), ("auth_mode", .str b.auth_mode),
    ("billing_path", .str b.billing_path.text), ("native_settings", .object b.native_settings)]

end Binding

inductive Role
  | commander
  | worker
  | reviewer
deriving DecidableEq

def Role.text : Role → String
  | .commander => "commander"
  | .worker => "worker"
  | .reviewer => "reviewer"

structure AttemptManifest where
  id : String
  fence : Int
  role : Role
  profile_id : String
  profile_revision : Int
  (authorization_ref budget_ref : String)
  permissions : List String
  requested_binding : Binding

namespace AttemptManifest

def valid (L : Library) (m : AttemptManifest) : Bool :=
  [m.id, m.profile_id, m.authorization_ref, m.budget_ref].all L.identifier &&
    m.permissions.all L.identifier && 0 < m.fence && 0 < m.profile_revision &&
    m.requested_binding.valid L

def document (m : AttemptManifest) : Json :=
  .object [("id", .str m.id), ("fence", .int m.fence), ("role", .str m.role.text),
    ("profile_id", .str m.profile_id), ("profile_revision", .int m.profile_revision),
    ("authorization_ref", .str m.authorization_ref), ("budget_ref", .str m.budget_ref),
    ("permissions", .ofTexts m.permissions), ("requested_binding", m.requested_binding.document)]

end AttemptManifest

structure CheckAttemptManifest where
  id : String
  fence : Int
  (authorization_ref budget_ref : String)
  permissions : List String
  environment_id : String
  environment_revision : Int
  (environment_source_sha256 execution_sha256 : String)

namespace CheckAttemptManifest

def valid (L : Library) (m : CheckAttemptManifest) : Bool :=
  [m.id, m.authorization_ref, m.budget_ref, m.environment_id].all L.identifier &&
    m.permissions.all L.identifier && 0 < m.fence && 0 < m.environment_revision &&
    sha256Text m.environment_source_sha256 && sha256Text m.execution_sha256

def document (m : CheckAttemptManifest) : Json :=
  .object [("schema_version", .str "karajan.check-attempt.v1"), ("id", .str m.id),
    ("fence", .int m.fence), ("role", .str "check"),
    ("authorization_ref", .str m.authorization_ref), ("budget_ref", .str m.budget_ref),
    ("permissions", .ofTexts m.permissions), ("environment_id", .str m.environment_id),
    ("environment_revision", .int m.environment_revision),
    ("environment_source_sha256", .str m.environment_source_sha256),
    ("execution_sha256", .str m.execution_sha256)]

end CheckAttemptManifest

inductive HostManifest
  | model (m : AttemptManifest)
  | check (m : CheckAttemptManifest)

namespace HostManifest

def id : HostManifest → String
  | .model m => m.id
  | .check m => m.id

def fence : HostManifest → Int
  | .model m => m.fence
  | .check m => m.fence

def authorization_ref : HostManifest → String
  | .model m => m.authorization_ref
  | .check m => m.authorization_ref

def budget_ref : HostManifest → String
  | .model m => m.budget_ref
  | .check m => m.budget_ref

def valid (L : Library) : HostManifest → Bool
  | .model m => m.valid L
  | .check m => m.valid L

def document : HostManifest → Json
  | .model m => m.document
  | .check m => m.document

end HostManifest

-- Processes and activations

structure ProcessSpec where
  argv : List String
  cwd : String
  timeout_seconds : Option Rat

namespace ProcessSpec

/-- The specification that is kept; `directory` is what its directory resolves to, none where
there is none. -/
def resolve (spec : ProcessSpec) (directory : Option String) : Except Fault ProcessSpec := do
  ensure (!(spec.argv.headD "").isEmpty && spec.argv.all fun argument =>
    !argument.toList.contains '\x00') .processInvalid
  let cwd ← need directory .processInvalid
  let timeout ← need spec.timeout_seconds .processInvalid
  ensure (0 < timeout) .processInvalid
  return { spec with cwd }

def document (spec : ProcessSpec) : Json := .object [("argv", .ofTexts spec.argv), ("cwd", .str spec.cwd),
    ("timeout_seconds", .ofTime? spec.timeout_seconds)]

end ProcessSpec

structure Activation where
  (id attempt_id : String)
  fence : Int
  (authorization_ref budget_ref : String)
  expires_at : Option Rat

namespace Activation

def construct (L : Library) (a : Activation) : Except Fault Activation := do
  ensure ([a.id, a.attempt_id, a.authorization_ref, a.budget_ref].all L.identifier) .contract
  ensure (0 < a.fence) .contract
  return a

def document (a : Activation) : Json :=
  .object [("id", .str a.id), ("attempt_id", .str a.attempt_id), ("fence", .int a.fence),
    ("authorization_ref", .str a.authorization_ref), ("budget_ref", .str a.budget_ref),
    ("expires_at", .ofTime? a.expires_at)]

def digest (L : Library) (a : Activation) : String := L.sha256 (L.encoded a.document)

def unexpired (a : Activation) (now : Rat) : Bool :=
  match a.expires_at with
  | some expires_at => now < expires_at
  | none => false

def binds (a : Activation) (m : HostManifest) : Bool :=
  a.attempt_id = m.id && a.fence = m.fence && a.authorization_ref = m.authorization_ref &&
    a.budget_ref = m.budget_ref

end Activation

end Karajan.Execution
