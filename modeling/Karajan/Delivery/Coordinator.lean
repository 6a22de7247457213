import Karajan.Lib.Check
import Karajan.Lib.Dict

/-!
# Deliveries

What is delivered: a request frozen for one revision of a run, and the document
that records how far its delivery has come. A document lists the operations
that were sent, or may have been sent, to the remote.
-/

namespace Karajan.Delivery

open Check

-- Requests and observations

structure Request where
  run_id : String
  delivery_revision : Int
  (repository_id managed_branch base_branch tested_base_sha candidate_id content_sha256 : String)
  (tree_sha commit_sha authorization_sha256 evidence_sha256 verification_ref : String)
  expected_old_sha : Option String
  require_ci : Bool
deriving DecidableEq

inductive Decision
  | allow
  | deny
  | unknown
deriving DecidableEq

inductive Provenance
  | fixture
  | importedObservation
deriving DecidableEq

structure VerificationReceipt where
  (receipt_ref binding_sha256 authority_revision : String)
  decision : Decision
  provenance : Provenance
deriving DecidableEq

inductive CiStatus
  | unknown
  | pending
  | success
  | failure
  | cancelled
  | skipped
  | neutral
  | timedOut
  | actionRequired
  | queued
  | inProgress
deriving DecidableEq

structure PullRequest where
  (id repository_id managed_branch base_branch run_id head_sha : String)
  (isOpen merged : Bool)
  ci_sha : Option String
  ci_status : CiStatus
deriving DecidableEq

structure Remote where
  repository_id : String
  (head_sha base_sha : Option String)
deriving DecidableEq

-- Documents

inductive ControlState
  | active
  | paused
  | cancelled
  | revoked
deriving DecidableEq

inductive Mode
  | production
  | offlineFixture
deriving DecidableEq

inductive Reason
  | control (state : Option ControlState)
  | revisionSuperseded
  | previousUnresolved
  | qualificationNotRun
  | receiptUnavailable
  | bindingNotAllowed
  | remoteObservationUnknown
  | remoteHeadChanged
  | testedBaseChanged
  | prIdentityConflict
  | prObservationChanged
  | remoteResultUnknown
  | refused (code : String)
deriving DecidableEq

inductive Step
  | push
  | pr
deriving DecidableEq

inductive OperationState
  | sendUnknown
  | confirmed
deriving DecidableEq

inductive Observation
  | remote (seen : Remote)
  | pr (seen : PullRequest)
deriving DecidableEq

structure Activation where
  (id binding_sha256 : String)
  verification_receipt : VerificationReceipt
  sent_at : String
deriving DecidableEq

structure Operation where
  id : String
  step : Step
  state : OperationState
  activation : Activation
  observation : Option Observation
  expected_pr_id : Option String
  reconciled : Bool
deriving DecidableEq

def Operation.pending (o : Operation) : Bool := o.state = .sendUnknown

inductive SnapshotState
  | planned
  | blocked
  | pushing
  | pushed
  | reconciling
  | publishing
  | delivered
  | awaitingCi
deriving DecidableEq

structure Ci where
  sha : Option String
  status : CiStatus
deriving DecidableEq

structure Snapshot where
  id : String
  request : Request
  binding_sha256 : String
  state : SnapshotState
  control_state : ControlState
  reason : Option Reason
  operations : List Operation
  execution_scope : Mode
  remote_observation : Option Remote
  pr : Option PullRequest
  ci : Ci
  (merged requirements_satisfied : Bool)
deriving DecidableEq

-- Validation

structure Library where
  (printable whitespace : Char → Bool)
  requestDigest : Request → String
  controlDigest : String → ControlState → String

def hexadecimal (length : Nat) (text : String) : Bool :=
  text.length = length && text.toList.all fun c => '0' ≤ c && c ≤ '9' || 'a' ≤ c && c ≤ 'f'

def sha (text : String) : Bool := hexadecimal 40 text

def digestText (text : String) : Bool := hexadecimal 64 text

/-- An identity of a request: no white space and no control character. -/
def Library.identity (L : Library) (text : String) : Bool :=
  0 < text.length && text.length ≤ 256 &&
    text.toList.all fun c => !L.whitespace c && 0x1f < c.toNat

def Library.identifier (L : Library) (text : String) : Bool :=
  0 < text.length && text.length ≤ 256 && text.toList.all L.printable

def Request.valid (L : Library) (r : Request) : Bool :=
  [r.run_id, r.repository_id, r.managed_branch, r.base_branch, r.candidate_id,
    r.verification_ref].all L.identity && 0 < r.delivery_revision &&
  [r.tested_base_sha, r.tree_sha, r.commit_sha].all sha && r.expected_old_sha.all sha &&
  [r.content_sha256, r.authorization_sha256, r.evidence_sha256].all digestText

/-- The pull request is of the request's repository, branches and run. -/
def prIdentity (request : Request) (pr : PullRequest) : Bool :=
  pr.repository_id = request.repository_id && pr.managed_branch = request.managed_branch &&
    pr.base_branch = request.base_branch && pr.run_id = request.run_id

-- The delivery coordinator

inductive Fault
  | actorForbidden
  | inputInvalid
  | idempotencyConflict
  | targetChanged
  | managedBranchOwned
  | revisionConflict
  | controlInvalid
  | notFound
  | controlTerminal
  | prIdentityConflict
  /-- The database refuses a row whose key is taken. -/
  | integrity
  /-- A row or an operation that was expected is missing. -/
  | missing

structure Target where
  (repository_id branch base_branch : String)
deriving DecidableEq

structure RunPr where
  (repository_id pr_id : String)
deriving DecidableEq

structure DeliveryRow where
  run_id : String
  revision : Int
  binding : String
  snapshot : Snapshot

inductive CommandResult
  | snapshot (s : Snapshot)
  | control (run_id : String) (state : ControlState)

structure Command where
  digest : String
  result : CommandResult

structure Db where
  deliveries : Dict String DeliveryRow
  commands : Dict (String × String) Command
  run_targets : Dict String Target
  run_controls : Dict String ControlState
  run_prs : Dict String RunPr

def Db.empty : Db := ⟨.empty, .empty, .empty, .empty, .empty⟩

def Db.save (db : Db) (snapshot : Snapshot) : Db :=
  { db with deliveries := db.deliveries.modify snapshot.id ({ · with snapshot }) }

def Db.snapshot? (db : Db) (delivery_id : String) : Option Snapshot :=
  (db.deliveries.get? delivery_id).map (·.snapshot)

def Db.ofRun (db : Db) (run_id : String) : List DeliveryRow := db.deliveries.values.filter (·.run_id = run_id)

-- Planning and control

def replay (db : Db) (principal command_key digest : String) : Except Fault (Option CommandResult) :=
  match db.commands.get? (principal, command_key) with
  | some command => do
    ensure (command.digest = digest) .idempotencyConflict
    return some command.result
  | none => .ok none

def newSnapshot (L : Library) (mode : Mode) (id : String) (request : Request)
    (control_state : ControlState) : Snapshot where
  id := id
  request := request
  binding_sha256 := L.requestDigest request
  state := .planned
  control_state := control_state
  reason := none
  operations := []
  execution_scope := mode
  remote_observation := none
  pr := none
  ci := ⟨none, .unknown⟩
  merged := false
  requirements_satisfied := false

def Request.target (r : Request) : Target := ⟨r.repository_id, r.managed_branch, r.base_branch⟩

def claimTarget (db : Db) (request : Request) : Except Fault Db :=
  match db.run_targets.get? request.run_id with
  | some target => do
    ensure (target = request.target) .targetChanged
    return db
  | none => do
    ensure (db.run_targets.values.all fun target =>
      !(target.repository_id = request.repository_id && target.branch = request.managed_branch))
      .managedBranchOwned
    return { db with run_targets := db.run_targets.put request.run_id request.target }

def plan (L : Library) (mode : Mode) (id : String) (request : Request)
    (command_key principal : String) (db : Db) : Except Fault (Db × CommandResult) := do
  ensure (principal = "controller") .actorForbidden
  ensure (L.identifier command_key) .inputInvalid
  ensure (request.valid L) .inputInvalid
  let digest := L.requestDigest request
  match ← replay db principal command_key digest with
  | some result => return (db, result)
  | none =>
    let db ← claimTarget db request
    let run_controls := db.run_controls.putNew request.run_id .active
    let control_state ← need (run_controls.get? request.run_id) .missing
    let db := { db with run_controls }
    let previous := db.deliveries.values.find? fun row =>
      row.run_id = request.run_id && row.revision = request.delivery_revision
    match previous with
    | some row =>
      ensure (row.binding = digest) .revisionConflict
      let result := CommandResult.snapshot row.snapshot
      return ({ db with commands := db.commands.put (principal, command_key) ⟨digest, result⟩ }, result)
    | none =>
      ensure (db.deliveries.get? id).isNone .integrity
      let snapshot := newSnapshot L mode id request control_state
      let result := CommandResult.snapshot snapshot
      return ({ db with
        deliveries := db.deliveries.put id ⟨request.run_id, request.delivery_revision, digest, snapshot⟩
        commands := db.commands.put (principal, command_key) ⟨digest, result⟩ }, result)

section
variable (s : Snapshot)

def Snapshot.control (state : ControlState) : Snapshot :=
  { s with
    control_state := state
    requirements_satisfied := s.requirements_satisfied && state = .active }

def DeliveryRow.control (row : DeliveryRow) (run_id : String) (state : ControlState) : DeliveryRow :=
  if row.run_id = run_id then { row with snapshot := row.snapshot.control state } else row

def setControl (L : Library) (run_id : String) (state : ControlState)
    (command_key principal : String) (db : Db) : Except Fault (Db × CommandResult) := do
  ensure (principal = "controller") .actorForbidden
  ensure (L.identifier run_id && L.identifier command_key) .inputInvalid
  let digest := L.controlDigest run_id state
  match ← replay db principal command_key digest with
  | some result => return (db, result)
  | none =>
    let current ← need (db.run_controls.get? run_id) .notFound
    ensure (!((current = .cancelled || current = .revoked) && state ≠ current)) .controlTerminal
    let result := CommandResult.control run_id state
    return ({ db with
      run_controls := db.run_controls.put run_id state
      deliveries := db.deliveries.mapValues fun _ row => row.control run_id state
      commands := db.commands.put (principal, command_key) ⟨digest, result⟩ }, result)

-- What an activation needs

def Snapshot.unresolved : Bool := s.operations.any Operation.pending

def activationReason (db : Db) (snapshot : Snapshot) : Option Reason :=
  let request := snapshot.request
  match db.run_controls.get? request.run_id with
  | some .active =>
    let rows := db.ofRun request.run_id
    if (rows.map (·.revision)).max? ≠ some request.delivery_revision then some .revisionSuperseded
    else if rows.any fun row =>
        row.revision < request.delivery_revision && row.snapshot.unresolved then
      some .previousUnresolved
    else none
  | other => some (.control other)

/-- The pull request bound to a run, which no other run may have. -/
def claimRunPr (db : Db) (request : Request) (pr_id : String) : Option Db :=
  match db.run_prs.get? request.run_id with
  | some row => if row = ⟨request.repository_id, pr_id⟩ then some db else none
  | none =>
    if db.run_prs.values.all fun row => row ≠ ⟨request.repository_id, pr_id⟩ then
      some { db with run_prs := db.run_prs.put request.run_id ⟨request.repository_id, pr_id⟩ }
    else none

def runPrId (db : Db) (run_id : String) : Option String := (db.run_prs.get? run_id).map (·.pr_id)

/-- Opening the tables binds the pull requests that were confirmed before. -/
def openTables (db : Db) : Except Fault Db := db.deliveries.values.foldlM (fun db row =>
    match row.snapshot.pr with
    | some pr => need (claimRunPr db row.snapshot.request pr.id) .prIdentityConflict
    | none => .ok db) db

-- Blocking

def Snapshot.block (reason : Reason) : Snapshot :=
  { s with
    state := .blocked
    reason := some reason
    requirements_satisfied := false }

/-- A delivery is only blocked if it is still what it was read as. -/
def block (snapshot : Snapshot) (reason : Reason) (db : Db) : Db :=
  if db.snapshot? snapshot.id = some snapshot then db.save (snapshot.block reason) else db

-- Operations

def updateFirst (id : String) (f : Operation → Operation) : List Operation → List Operation
  | [] => []
  | o :: rest => if o.id = id then f o :: rest else o :: updateFirst id f rest

def Snapshot.operation? (id : String) : Option Operation := s.operations.find? (·.id = id)

def Snapshot.pushConfirmed : Bool := s.operations.any fun o => o.step = .push && o.state = .confirmed

inductive Outcome
  | stops
  | goesOn

def checkActivation (snapshot : Snapshot) (db : Db) : Except Fault (Db × Outcome) :=
  match activationReason db snapshot with
  | some reason => do
    let current ← need (db.snapshot? snapshot.id) .missing
    return (db.save (current.block reason), .stops)
  | none => .ok (db, .goesOn)

def Snapshot.append (operation : Operation) (state : SnapshotState) : Snapshot :=
  { s with operations := s.operations ++ [operation], state }

def appendPush (snapshot : Snapshot) (operation : Operation) (db : Db) : Except Fault (Db × Outcome) := do
  let current ← need (db.snapshot? snapshot.id) .missing
  match activationReason db current with
  | some reason => return (db.save (current.block reason), .stops)
  | none =>
    if current ≠ snapshot then return (db, .stops)
    else return (db.save (current.append operation .pushing), .goesOn)

def Operation.record (o : Operation) (observation : Option Remote) : Operation :=
  { o with
    state := if observation.isSome then .confirmed else .sendUnknown
    observation := observation.map Observation.remote }

def Snapshot.recordPush (id : String) (observation : Option Remote) : Snapshot :=
  { s with
    operations := updateFirst id (·.record observation) s.operations
    remote_observation := observation
    state := if observation.isSome then .pushed else .reconciling
    reason := if observation.isSome then none else some .remoteResultUnknown }

def recordPush (snapshot : Snapshot) (id : String) (observation : Option Remote) (db : Db) : Except Fault Db := do
  let current ← need (db.snapshot? snapshot.id) .missing
  let stored ← need (current.operation? id) .missing
  if stored.state = .confirmed then return db
  else return db.save (current.recordPush id observation)

def appendPr (snapshot : Snapshot) (operation : Operation) (existing_id : Option String) (db : Db) :
    Except Fault (Db × Outcome) := do
  let current ← need (db.snapshot? snapshot.id) .missing
  match activationReason db current with
  | some reason => return (db.save (current.block reason), .stops)
  | none =>
    if current ≠ snapshot then return (db, .stops)
    else
      let bound_id := runPrId db snapshot.request.run_id
      let claimed := match existing_id with
        | some pr_id => claimRunPr db snapshot.request pr_id
        | none => some db
      match claimed with
      | some claimed =>
        if bound_id.isSome && bound_id ≠ existing_id then
          return (db.save (current.block .prIdentityConflict), .stops)
        else return (claimed.save (current.append operation .publishing), .goesOn)
      | none => return (db.save (current.block .prIdentityConflict), .stops)

def Snapshot.unknown : Snapshot :=
  { s with
    state := .reconciling
    reason := some .remoteResultUnknown
    requirements_satisfied := false }

def unknown (snapshot : Snapshot) (db : Db) : Except Fault Db := do
  let current ← need (db.snapshot? snapshot.id) .missing
  if current.unresolved then return db.save current.unknown else return db

def Operation.confirm (o : Operation) (pr : PullRequest) : Operation :=
  { o with
    state := .confirmed
    observation := some (.pr pr) }

def completed (request : Request) (pr : PullRequest) : Bool :=
  !request.require_ci || (pr.ci_sha = some request.commit_sha && pr.ci_status = .success)

def Snapshot.confirmPr (id : String) (pr : PullRequest) (observation : Option Remote) : Snapshot :=
  { s with
    operations := updateFirst id (·.confirm pr) s.operations
    pr := some pr
    ci := ⟨pr.ci_sha, pr.ci_status⟩
    merged := pr.merged
    remote_observation := observation }

def Snapshot.conclude (completed : Bool) (reason : Option Reason) : Snapshot :=
  { s with
    requirements_satisfied := completed && reason.isNone
    state := if reason.isSome then .blocked else if completed then .delivered else .awaitingCi
    reason := reason }

def confirmPr (snapshot : Snapshot) (id : String) (pr : PullRequest)
    (verification_reason : Option Reason) (observation : Option Remote)
    (remote_reason : Option Reason) (db : Db) : Except Fault Db := do
  let current ← need (db.snapshot? snapshot.id) .missing
  let _ ← need (current.operation? id) .missing
  match claimRunPr db snapshot.request pr.id with
  | none => return db.save (current.block .prIdentityConflict)
  | some db =>
    let confirmed := current.confirmPr id pr observation
    let reason := (activationReason db confirmed).or (verification_reason.or remote_reason)
    return db.save (confirmed.conclude (completed snapshot.request pr) reason)

def Operation.reconcile (o : Operation) (observation : Remote) (commit_sha : String) : Operation :=
  if observation.head_sha = some commit_sha then
    { o with observation := some (.remote observation), state := .confirmed, reconciled := true }
  else { o with observation := some (.remote observation) }

def Snapshot.reconcilePush (id : String) (observation : Remote) : Snapshot :=
  let found := observation.head_sha = some s.request.commit_sha
  { s with
    operations := updateFirst id (·.reconcile observation s.request.commit_sha) s.operations
    remote_observation := some observation
    state := if found then .pushed else .reconciling
    reason := if found then none else some .remoteResultUnknown }

end

def reconcilePush (snapshot : Snapshot) (id : String) (observation : Remote) (db : Db) : Except Fault Db := do
  let current ← need (db.snapshot? snapshot.id) .missing
  let stored ← need (current.operation? id) .missing
  if stored.state = .sendUnknown then return db.save (current.reconcilePush id observation)
  else return db

end Karajan.Delivery
