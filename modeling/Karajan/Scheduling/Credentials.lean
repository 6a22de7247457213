import Karajan.Scheduling.Values

/-!
# Trusted identities

Authority is never taken from a request body. It is taken from a credential the
service itself issued, resolved here into a `Principal`. Only a digest of the
token is stored.
-/

namespace Karajan.Scheduling

open Check

inductive CredentialKind
  | userSession
  | roleProtocol
  | executionConsumer
  deriving DecidableEq

def CredentialKind.text : CredentialKind → String
  | .userSession => "user_session"
  | .roleProtocol => "role_protocol"
  | .executionConsumer => "execution_consumer"

def CredentialKind.ofText? (text : String) : Option CredentialKind :=
  [CredentialKind.userSession, .roleProtocol, .executionConsumer].find? fun kind => kind.text = text

inductive Route
  | decision
  | queue
  | claim
  | task
  | observeTask
  | run
  | authorization
  | grant
  | delegation
  | revocation
  | resource
  | consumer
  | reconcile
  deriving DecidableEq

def Route.text : Route → String
  | .decision => "decision"
  | .queue => "queue"
  | .claim => "claim"
  | .task => "task"
  | .observeTask => "observe_task"
  | .run => "run"
  | .authorization => "authorization"
  | .grant => "grant"
  | .delegation => "delegation"
  | .revocation => "revocation"
  | .resource => "resource"
  | .consumer => "consumer"
  | .reconcile => "reconcile"

def routesByKind : CredentialKind → List Route
  | .roleProtocol => [.decision]
  | .executionConsumer => [.queue, .claim, .task, .observeTask]
  | .userSession =>
    [.run, .authorization, .grant, .delegation, .revocation, .resource, .consumer, .reconcile]

structure Principal where
  credential_id : String
  kind : CredentialKind
  runs : List String
  (grant_id role_instance : Option String)
  term : Nat
  routes : List Route

def Principal.isUser (principal : Principal) : Bool := principal.kind = .userSession

def Principal.requireRoute (principal : Principal) (route : Route) : Chk Unit :=
  ensure (principal.routes.contains route)
    (refusal .credentialScopeInsufficient s!"grant#/{route.text}"
      "this credential kind does not carry that capability"
      [("kind", .str principal.kind.text), ("required_route", .str route.text)])

def Principal.requireRun (principal : Principal) (run_id : String) : Chk Unit :=
  ensure (principal.runs.contains run_id)
    (refusal .runNotFound "run#/id" "this credential is not issued for that run")

def Principal.requireGrant (principal : Principal) (grant_id : String) : Chk Unit :=
  ensure (match principal.grant_id with | none => true | some bound => bound = grant_id)
    (refusal .grantNotFound "grant#/id" "this credential is bound to a different grant")

structure Credential where
  credential_id : String
  kind : CredentialKind
  run_id : String
  (grant_id role_instance : Option String)
  term : Nat
  issued_at : Rat
  expires_at : Option Rat
  (token_digest project_id issued_by issue_command : String)
  revoked_at : Option Rat
  (revoked_reason subject_ref : Option String)
  digest : String

def Credential.body (credential : Credential) : Json :=
  .object
    [("schema_version", .str "karajan.scheduling-credential.v1"),
     ("credential_id", .str credential.credential_id),
     ("kind", .str credential.kind.text),
     ("run_id", .str credential.run_id),
     ("grant_id", Json.ofText? credential.grant_id),
     ("role_instance", Json.ofText? credential.role_instance),
     ("term", .int credential.term),
     ("issued_at", .float credential.issued_at),
     ("expires_at", Json.ofTime? credential.expires_at),
     ("token_digest", .str credential.token_digest),
     ("routes", Json.ofTexts (sorted ((routesByKind credential.kind).map Route.text))),
     ("stores_raw_token", .bool false),
     ("project_id", .str credential.project_id),
     ("issued_by", .str credential.issued_by),
     ("issue_command", .str credential.issue_command),
     ("revoked_at", Json.ofTime? credential.revoked_at),
     ("revoked_reason", Json.ofText? credential.revoked_reason),
     ("delegated_from", .null),
     ("subject_ref", Json.ofText? credential.subject_ref)]

def Credential.reseal (P : Platform) (credential : Credential) : Credential :=
  { credential with digest := P.contentDigest credential.body }

def validateKind (value : Json) : Chk CredentialKind :=
  need (value.str?.bind CredentialKind.ofText?)
    (refusal .credentialKindInvalid "grant#/credential/kind"
      "a credential kind is one of the three issued kinds")

structure IssueRequest where
  kind : CredentialKind
  run_id : String
  (grant_id role_instance : Option String)
  (expires_at requested_seconds : Option Rat)

def issueRequestFields : List String := ["kind", "run_id", "grant_id", "role_instance", "expires_in"]

def validateIssueRequest (P : Platform) (value : Json) (now : Rat) : Chk IssueRequest := do
  let fields ← need value.object? (plain .inputInvalid)
  let unknown := outside fields issueRequestFields
  ensure (unknown.length == 0) (unknownFields .inputInvalid "grant#/credential" unknown)
  let kind ← validateKind (field fields "kind")
  let run_id ← boundedIdentifier (field fields "run_id") .runInvalid "run#/id"
  let grant_id ← optionalIdentifier (field fields "grant_id") .grantInvalid "grant#/id"
  let role_instance ←
    optionalIdentifier (field fields "role_instance") .roleInvalid "grant#/role_instance"
  ensure (!(kind = .roleProtocol && (grant_id.isNone || role_instance.isNone)))
    (refusal .credentialSubjectRequired "grant#/credential"
      "a role protocol credential is bound to a grant and a role instance")
  let requested_seconds ←
    optional (fun time => number P time .inputInvalid "grant#/expires_in") (field fields "expires_in")
  ensure (match requested_seconds with | none => true | some seconds => 0 < seconds)
    (plain .inputInvalid)
  return {
    kind, run_id, grant_id, role_instance, requested_seconds
    expires_at := requested_seconds.map fun seconds => now + seconds }

end Karajan.Scheduling
