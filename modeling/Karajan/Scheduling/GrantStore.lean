import Karajan.Lib.Forest
import Karajan.Scheduling.Tables

/-!
# Issuing, delegating and revoking grants

A grant is issued under the run's initial authorization, or derived from a live
parent. Revocation covers every grant derived from the named one, in one
transaction; whoever acts under a grant walks its whole ancestry.
-/

namespace Karajan.Scheduling

open Check

section
variable (P : Platform)

def grantFrom (grant : Grant) : Chk Grant := do
  ensure (grant.digest = grantDigest P grant) (plain .grantRecordChanged)
  return grant

def grantRow (tables : RunTables) (grant_id : String) : Chk Grant := do
  let grant ← need (tables.scheduler_grants.get? grant_id) (plain .grantNotFound)
  grantFrom P grant

def requireGrantLive (grant : Grant) (now : Rat) : Chk Unit := do
  ensure grant.live
    (refusal .grantRevoked "grant#/revoked_at" "this grant was revoked"
      [("grant_id", .str grant.grant_id)])
  ensure (!grantExpired grant now)
    (refusal .grantExpired "grant#/expires_at" "this grant expired"
      [("grant_id", .str grant.grant_id)])

def requireParentsLive (P : Platform) (tables : RunTables) (now : Rat) :
    Nat → List String → Option String → Chk Unit
  | _, _, none => .ok ()
  | 0, _, some _ => .error (plain .grantChainInvalid)
  | rounds + 1, seen, some parent_id => do
    ensure (!seen.contains parent_id) (plain .grantChainInvalid)
    let parent ← grantRow P tables parent_id
    requireGrantLive parent now
    requireParentsLive P tables now rounds (parent_id :: seen) parent.parent_grant_id

/-- Every parent met is a new row, so the walk has no more rounds than rows. -/
def chainRounds (tables : RunTables) : Nat := tables.scheduler_grants.entries.length + 1

/-- Refuse a grant whose ancestry is not entirely live, right now. -/
def requireChainLive (tables : RunTables) (grant : Grant) (now : Rat) : Chk Unit := do
  requireGrantLive grant now
  requireParentsLive P tables now (chainRounds tables) [grant.grant_id] grant.parent_grant_id

/-- Refuse a grant naming a role, kind or delivery target the run did not freeze. -/
def requireFrozenDefinitions (run : RunRecord) (parsed : GrantPayload) (pointer : String) : Chk Unit := do
  let unknown_roles :=
    sorted (parsed.role_refs.values.filter fun r => !run.definitions.role_refs.values.contains r)
  ensure (unknown_roles.length == 0)
    { code := .grantRoleUnresolved,
      fields := [("role_refs", Json.ofTexts (unknown_roles.take 16))],
      diagnostics := (unknown_roles.take 16).map fun reference =>
        located .grantRoleUnresolved s!"{pointer}/id={reference}"
          "the frozen deployment declares no such role revision" }
  let unknown_kinds := sorted
    (parsed.execution_kind_refs.filter fun r => !run.definitions.execution_kinds.contains r)
  ensure (unknown_kinds.length == 0)
    { code := .grantKindUnresolved,
      fields := [("execution_kind_refs", Json.ofTexts (unknown_kinds.take 16))],
      diagnostics := (unknown_kinds.take 16).map fun reference =>
        located .grantKindUnresolved s!"{pointer}/id={reference}"
          "the frozen deployment references no such registered kind" }
  match parsed.artifact with
  | none => .ok ()
  | some artifact => do
    ensure (run.definitions.contracts.contains "aggregated-report@1") (plain .grantContractUnresolved)
    let declared := ((Artifact.ofText? run.delivery_kind).map Artifact.rank).getD 0
    ensure (artifact.rank ≤ declared)
      (refusal .grantArtifactInvalid s!"{pointer}/id=artifact"
        "the frozen deployment is not authorised for that delivery target"
        [("artifact", .str artifact.text), ("frozen_delivery_kind", .str run.delivery_kind)])

def rootDocument (key : RunKey) (run : RunRecord) (parsed : GrantPayload) (now : Rat) : Grant :=
  Grant.reseal P {
    toAuthority := parsed.toAuthority
    grant_id := parsed.grant_id
    run_id := key.run_id
    project_id := key.project_id
    revision := 1
    issuer_ref := run.authorization_id
    subject_ref := parsed.subject_ref
    role_instance := parsed.role_instance
    parent_grant_id := none
    root_grant_id := parsed.grant_id
    root_authorization_id := run.authorization_id
    depth := 0
    term := 0
    valid_from := now
    revoked_at := none
    revoked_reason := none
    revoked_by := none
    digest := "" }

def childDocument (key : RunKey) (parent : Grant) (parsed : GrantPayload) (now : Rat) : Grant :=
  Grant.reseal P {
    toAuthority := parsed.toAuthority
    grant_id := parsed.grant_id
    run_id := key.run_id
    project_id := key.project_id
    revision := 1
    issuer_ref := parent.grant_id
    subject_ref := parsed.subject_ref
    role_instance := parsed.role_instance
    parent_grant_id := some parent.grant_id
    root_grant_id := parent.root_grant_id
    root_authorization_id := parent.root_authorization_id
    depth := parent.depth + 1
    term := parent.term
    valid_from := now
    revoked_at := none
    revoked_reason := none
    revoked_by := none
    digest := "" }

/-- Insert a grant, or answer with the row of the same identity and digest. -/
def insertGrant (tables : RunTables) (document : Grant) : Chk (Grant × RunTables) :=
  match tables.scheduler_grants.get? document.grant_id with
  | some existing => do
    ensure (existing.digest = document.digest) (plain .grantAlreadyExists)
    return (existing, tables)
  | none =>
    .ok (document,
      { tables with scheduler_grants := tables.scheduler_grants.put document.grant_id document })

/-- Issue one top-level grant under the run's initial user authorization. -/
def issueGrant (db : Db) (key : RunKey) (payload : Json) (now : Rat) : Chk (Grant × Db) := do
  let parsed ← validateGrantPayload P payload
  owned P db key.project_id
  let tables := db.runs key
  let run ← runRow P tables
  requireFrozenDefinitions run parsed "grant#/role_refs"
  let (grant, tables) ← insertGrant tables (rootDocument P key run parsed now)
  return (grant, db.setRun key tables)

def delegationParts (payload : Json) : Chk (String × Fields) := do
  let noParent := refusal .grantInvalid "grant#/parent_grant_id"
    "a delegated grant names the grant it derives from"
  let fields ← need payload.object? noParent
  let stated ← need (findField fields "parent_grant_id") noParent
  let parent_id ← boundedIdentifier stated .grantInvalid "grant#/parent_grant_id"
  return (parent_id, fields.filter fun field => field.1 != "parent_grant_id")

/-- Derive one child grant, refusing anything that is not a strict subset. The
clock is read for the parent's liveness and again for the child's first instant. -/
def delegateGrant (db : Db) (key : RunKey) (payload : Json) (clock : Nat → Rat) : Chk (Grant × Db) := do
  let (parent_id, body) ← delegationParts payload
  let parsed ← validateGrantPayload P (.object body)
  owned P db key.project_id
  let tables := db.runs key
  let parent ← grantRow P tables parent_id
  requireGrantLive parent (clock 0)
  let run ← runRow P tables
  requireFrozenDefinitions run parsed "grant#/role_refs"
  requireSubset parent parsed.toAuthority
  let root ← grantRow P tables parent.root_grant_id
  requireDelegationDepth root parent (parent.depth + 1)
  let (grant, tables) ← insertGrant tables (childDocument P key parent parsed (clock 1))
  return (grant, db.setRun key tables)

-- Revocation

def affectedBy (grants : Dict String Grant) (grant_id : String) : List String :=
  Forest.below Grant.parent_grant_id grants grant_id

def Grant.revoke (grant : Grant) (grant_id reason : String) (now : Rat) : Grant :=
  Grant.reseal P { grant with
    revoked_at := some now, revoked_reason := some reason, revoked_by := some grant_id }

def Credential.revoke (credential : Credential) (reason : String) (now : Rat) : Credential :=
  Credential.reseal P { credential with
    revoked_at := some now, revoked_reason := some (takeText 512 ("grant-revoked:" ++ reason)) }

/-- Every live credential issued for the grant is revoked with it. -/
def revokeGrantCredentials (credentials : Dict String CredentialRow) (key : RunKey)
    (grant_id reason : String) (now : Rat) : Dict String CredentialRow :=
  credentials.mapValues fun _ row =>
    if row.project_id = key.project_id ∧ row.run_id = key.run_id ∧
        row.record.grant_id = some grant_id ∧ row.record.revoked_at = none then
      { row with record := row.record.revoke P reason now }
    else row

structure Revocation where
  grant_id : String
  revoked : List String
  revoked_at : Rat
  reason : String
  descendants_revoked : List String

/-- Revoke one grant and every grant derived from it, in one transaction. A row
that is already revoked keeps its record. -/
def revokeGrant (db : Db) (key : RunKey) (grant_id reason : String) (now : Rat) : Chk (Revocation × Db) := do
  let grant_id ← boundedIdentifier (.str grant_id) .grantNotFound "grant#/id"
  ensure (1 ≤ reason.toList.length && reason.toList.length ≤ 512) (plain .inputInvalid)
  owned P db key.project_id
  let tables := db.runs key
  let named ← need (tables.scheduler_grants.get? grant_id) (plain .grantNotFound)
  let affected := affectedBy tables.scheduler_grants grant_id
  let grants := tables.scheduler_grants.mapValues fun name grant =>
    if affected.contains name && grant.live then grant.revoke P grant_id reason now else grant
  -- the credentials follow the named grant, where this command revoked it
  let credentials :=
    if named.live then
      revokeGrantCredentials P db.scheduling_credentials key grant_id reason now
    else db.scheduling_credentials
  return (
    { grant_id, reason
      revoked := sorted affected
      revoked_at := now
      descendants_revoked := sorted (affected.filter (· != grant_id)) },
    { db.setRun key { tables with scheduler_grants := grants } with
      scheduling_credentials := credentials })

-- Expansions

def expansionFields : List String :=
  ["expansion_id", "goal", "required_outcomes", "member_policy", "parent_task_id"]

/-- Open one expansion set under a grant, before any member exists. -/
def createExpansion (db : Db) (key : RunKey) (grant_id : String) (payload : Json)
    (now : Rat) : Chk (Expansion × Db) := do
  let fields ← requireFields payload expansionFields "grant#/expansion"
  let expansion_id ←
    boundedIdentifier (field fields "expansion_id") .expansionInvalid "grant#/expansion_id"
  let goal ← need (field fields "goal").str? (plain .inputInvalid)
  ensure (1 ≤ goal.toList.length && goal.toList.length ≤ 2000) (plain .inputInvalid)
  let outcomes ←
    storeTextList (field fields "required_outcomes") .inputInvalid "grant#/required_outcomes"
  let member_policy ←
    optional (fun value => positiveCount value .inputInvalid "grant#/member_policy")
      (field fields "member_policy")
  let parent_task_id ←
    optionalIdentifier (field fields "parent_task_id") .inputInvalid "grant#/parent_task_id"
  owned P db key.project_id
  let tables := db.runs key
  let _ ← runRow P tables
  let grant ← grantRow P tables grant_id
  requireChainLive P tables grant now
  ensure (grant.allowed_actions.contains .expandGraph) (plain .grantActionNotPermitted)
  let extra := notIn grant.required_outcomes outcomes
  ensure (extra.length == 0)
    { code := .grantOutcomeNotPermitted, fields := [("outcomes", Json.ofTexts (extra.take 8))] }
  ensure (!tables.task_expansions.contains expansion_id) (plain .expansionAlreadyExists)
  let document := expansionDocument P expansion_id key.run_id grant_id parent_task_id goal 0
    (sorted outcomes) member_policy
  return (document,
    db.setRun key { tables with task_expansions := tables.task_expansions.put expansion_id document })

-- Issuing and resolving credentials

def subjectDigest (key : RunKey) (request : IssueRequest) : String :=
  P.contentDigest (.list
    [.str "scheduling.credential", .str key.project_id, .str key.run_id, .str request.kind.text,
     Json.ofText? request.grant_id, Json.ofText? request.role_instance,
     Json.ofTime? request.requested_seconds])

/-- Resolve a repeated issuance without minting a second live credential. -/
def credentialReplay (db : Db) (command_key digest : String) : Chk (Option Credential) :=
  match db.credential_issuances.get? ("owner", command_key) with
  | none => .ok none
  | some issuance => do
    ensure (issuance.digest = digest) (plain .idempotencyConflict)
    let row ← need (db.scheduling_credentials.get? issuance.credential_id) (plain .credentialInvalid)
    return some row.record

def requestedGrant (tables : RunTables) (request : IssueRequest) (now : Rat) : Chk (Option Grant) :=
  match request.grant_id with
  | none => .ok none
  | some grant_id => do
    let grant ← grantRow P tables grant_id
    requireChainLive P tables grant now
    return some grant

def requireGrantRun (grant : Option Grant) (run_id : String) : Chk Unit :=
  match grant with
  | none => .ok ()
  | some grant => ensure (grant.run_id = run_id) (plain .grantNotFound)

def requireSubject (grant : Option Grant) (request : IssueRequest) : Chk Unit :=
  match grant with
  | some grant =>
    ensure (!(request.kind = .roleProtocol && some grant.role_instance != request.role_instance))
      (refusal .grantSubjectMismatch "grant#/role_instance" "the grant binds a different role instance")
  | none => .ok ()

def credentialDocument (key : RunKey) (request : IssueRequest) (grant : Option Grant)
    (command_key token : String) (now : Rat) : Credential :=
  Credential.reseal P {
    credential_id := "cred-" ++ takeText 24
      (P.contentDigest (.list [.str command_key, .str (subjectDigest P key request)]))
    kind := request.kind
    run_id := key.run_id
    grant_id := request.grant_id
    role_instance := request.role_instance
    term := (grant.map Grant.term).getD 0
    issued_at := now
    expires_at := request.expires_at
    token_digest := P.tokenDigest token
    project_id := key.project_id
    issued_by := "owner"
    issue_command := command_key
    revoked_at := none
    revoked_reason := none
    subject_ref := grant.map Grant.subject_ref
    digest := "" }

/-- What an issuing command answers: the credential, with its token where this
command minted it. -/
structure IssuedCredential where
  credential : Credential
  token : Option String

/-- Issue one narrow credential. `token` is what the token source drew; the
clock is read for the expiry, for the chain and for the instant of issue. -/
def issueCredential (db : Db) (key : RunKey) (payload : Json)
    (command_key token : String) (clock : Nat → Rat) : Chk (IssuedCredential × Db) := do
  owned P db key.project_id
  let tables := db.runs key
  let _ ← runRow P tables
  let request ← validateIssueRequest P payload (clock 0)
  let digest := subjectDigest P key request
  match ← credentialReplay db command_key digest with
  | some credential => return ({ credential, token := none }, db)
  | none => do
    let grant ← requestedGrant P tables request (clock 1)
    requireGrantRun grant key.run_id
    requireSubject grant request
    let credential := credentialDocument P key request grant command_key token (clock 2)
    let credentials ← insertRow db.scheduling_credentials credential.credential_id
      { project_id := key.project_id, run_id := key.run_id, digest := credential.token_digest,
        record := credential }
    let issuances ← insertRow db.credential_issuances ("owner", command_key)
      { digest, credential_id := credential.credential_id }
    return ({ credential, token := some token },
      { db with scheduling_credentials := credentials, credential_issuances := issuances })

def credentialFrom (credential : Credential) (now : Rat) : Chk Credential := do
  ensure (credential.digest = P.contentDigest credential.body) (plain .credentialRecordChanged)
  ensure credential.revoked_at.isNone
    (refusal .credentialRevoked "grant#/credential" "revoked")
  ensure (match credential.expires_at with | none => true | some t => now < t)
    (refusal .credentialExpired "grant#/credential" "expired")
  return credential

/-- Resolve one presented token into the trusted identity it stands for. -/
def resolveCredential (db : Db) (token : String) (now : Rat) : Chk Principal := do
  ensure (32 ≤ token.toList.length && token.toList.length ≤ 256) (plain .credentialInvalid)
  let row ← need (db.scheduling_credentials.values.find? fun row => row.digest = P.tokenDigest token)
    (plain .credentialInvalid)
  let credential ← credentialFrom P row.record now
  return {
    credential_id := credential.credential_id
    kind := credential.kind
    runs := [credential.run_id]
    grant_id := credential.grant_id
    role_instance := credential.role_instance
    term := credential.term
    routes := routesByKind credential.kind }

end

end Karajan.Scheduling
