import Karajan.Delivery.Coordinator
import Karajan.Lib.Runs

/-!
# Advancing a delivery

An advance reads the delivery, talks to the remote, and looks again in later
transactions. Each transaction and each call of the remote is a step of its
own; other advances, plans and controls may come between any two, and an
advance may stop after any of them.
-/

namespace Karajan.Delivery

open Check

-- The coordinator that advances

structure Coordinator where
  mode : Mode
  local_remote : Bool
  /-- What its service of pull requests is for, none where it has no service. -/
  pr_service : Option Mode
  verification_reader : Bool

inductive Answer (α : Type)
  | returns (a : α)
  | unknown
  | refuses (code : String)
  | raises

structure World where
  /-- The receipt that is read, none where it is unavailable. -/
  receipt : Option VerificationReceipt
  seen : Answer Remote
  validated : Answer Unit
  /-- A list of pull requests, none standing for one that is malformed. -/
  listed : Answer (Option (List (Option PullRequest)))
  pushed : Answer (Option Remote)
  published : Answer (Option PullRequest)
  (operation_id activation_id now : String)

/-- Why the receipt does not allow this delivery, if it does not. -/
def verification (c : Coordinator) (snapshot : Snapshot) (receipt : Option VerificationReceipt) :
    Except Reason VerificationReceipt := do
  ensure (c.mode = .offlineFixture && snapshot.execution_scope = c.mode && c.local_remote &&
    c.pr_service = some .offlineFixture && c.verification_reader) .qualificationNotRun
  let receipt ← need receipt .receiptUnavailable
  ensure (receipt.receipt_ref = snapshot.request.verification_ref &&
    receipt.binding_sha256 = snapshot.binding_sha256 && receipt.decision = .allow &&
    receipt.provenance = .fixture) .bindingNotAllowed
  return receipt

def verificationReason (c : Coordinator) (snapshot : Snapshot) (receipt : Option VerificationReceipt) :
    Option Reason :=
  match verification c snapshot receipt with
  | .ok _ => none
  | .error reason => some reason

def newOperation (w : World) (snapshot : Snapshot) (step : Step) (receipt : VerificationReceipt)
    (expected_pr_id : Option String) : Operation where
  id := w.operation_id
  step := step
  state := .sendUnknown
  activation := ⟨w.activation_id, snapshot.binding_sha256, receipt, w.now⟩
  observation := none
  expected_pr_id := expected_pr_id
  reconciled := false

def remoteReason (request : Request) (seen : Remote) : Option Reason :=
  if seen.head_sha ≠ some request.commit_sha then some .remoteHeadChanged
  else if seen.base_sha ≠ some request.tested_base_sha then some .testedBaseChanged
  else none

/-- The matching pull requests, if there is at most one and it is the request's. -/
def ownMatches (request : Request) (found : Option (List (Option PullRequest))) : Option (Option PullRequest) :=
  match found with
  | some [] => some none
  | some [some pr] => if prIdentity request pr then some (some pr) else none
  | _ => none

-- Stages

/-- Where an advance is; the snapshot is the one it read when it began. -/
inductive Stage
  | reading
  | verifying
  | checking (receipt : VerificationReceipt)
  | validating (receipt : VerificationReceipt)
  | appendingPush (receipt : VerificationReceipt)
  | pushing (operation : Operation)
  | recordingPush (operation : Operation) (observation : Option Remote)
  | inspecting (receipt : VerificationReceipt)
  | lookingUp (receipt : VerificationReceipt) (seen : Remote)
  | binding (receipt : VerificationReceipt) (found : Option PullRequest)
  | appendingPr (receipt : VerificationReceipt) (existing_id : Option String)
  | publishing (operation : Operation) (existing_id : Option String)
  | confirmVerifying (operation : Operation) (pr : PullRequest)
  | confirmInspecting (operation : Operation) (pr : PullRequest) (verification_reason : Option Reason)
  | confirming (operation : Operation) (pr : PullRequest) (verification_reason : Option Reason)
      (observation : Option Remote) (remote_reason : Option Reason)
  | unknown
  | reconcileInspecting (operation : Operation)
  | reconcileLookingUp (operation : Operation) (seen : Remote)
  | reconcilingPush (operation : Operation)
  | recordingReconcile (operation : Operation) (seen : Remote)
  | blocking (reason : Reason)
  | ended

structure Advance where
  coordinator : Coordinator
  delivery_id : String
  snapshot : Option Snapshot

/-- What comes first of a confirmation: the pull request must be the request's. -/
def confirmFirst (snapshot : Snapshot) (operation : Operation) (pr : Option PullRequest) : Stage :=
  match pr.filter fun pr => prIdentity snapshot.request pr && pr.head_sha = snapshot.request.commit_sha with
  | some pr => .confirmVerifying operation pr
  | none => if operation.state = .confirmed then .blocking .prObservationChanged else .unknown

/-- The first step: the delivery is read, and what may have been sent is reconciled first. -/
def readStage (c : Coordinator) (snapshot : Snapshot) : Stage :=
  match snapshot.operations.find? Operation.pending with
  | some operation =>
    if c.local_remote then
      match operation.step with
      | .pr => if c.pr_service.isSome then .reconcileInspecting operation else .ended
      | .push => .reconcilingPush operation
    else .verifying
  | none => .verifying

/-- A step that only talks to the remote, or to the reader of receipts. -/
def talk (w : World) (c : Coordinator) (snapshot : Snapshot) : Stage → Stage
  | .verifying =>
    match verification c snapshot w.receipt with
    | .ok receipt => .checking receipt
    | .error reason => .blocking reason
  | .validating receipt =>
    match w.validated with
    | .returns () => .appendingPush receipt
    | .unknown => .blocking .remoteObservationUnknown
    | .refuses code => .blocking (.refused code)
    | .raises => .ended
  | .pushing operation =>
    match w.pushed with
    | .returns observation => .recordingPush operation observation
    | .unknown => .recordingPush operation none
    | .refuses _ | .raises => .ended
  | .inspecting receipt =>
    match w.seen with
    | .returns seen => .lookingUp receipt seen
    | .unknown => .blocking .remoteObservationUnknown
    | .refuses _ | .raises => .ended
  | .lookingUp receipt seen =>
    match w.listed with
    | .returns found =>
      match remoteReason snapshot.request seen, ownMatches snapshot.request found with
      | some reason, _ => .blocking reason
      | none, some found => .binding receipt found
      | none, none => .blocking .prIdentityConflict
    | .unknown => .blocking .remoteObservationUnknown
    | .refuses _ | .raises => .ended
  | .publishing operation _ =>
    match w.published with
    | .returns pr => confirmFirst snapshot operation pr
    | .unknown => .unknown
    | .refuses _ | .raises => .ended
  | .confirmVerifying operation pr =>
    .confirmInspecting operation pr (verificationReason c snapshot w.receipt)
  | .confirmInspecting operation pr verification_reason =>
    match w.seen with
    | .returns seen =>
      .confirming operation pr verification_reason (some seen) (remoteReason snapshot.request seen)
    | .unknown | .refuses _ =>
      .confirming operation pr verification_reason none (some .remoteObservationUnknown)
    | .raises => .ended
  | .reconcileInspecting operation =>
    match w.seen with
    | .returns seen => .reconcileLookingUp operation seen
    | .unknown | .refuses _ | .raises => .ended
  | .reconcileLookingUp operation seen =>
    match w.listed with
    | .returns found =>
      match remoteReason snapshot.request seen, found with
      | some reason, _ => .blocking reason
      | none, some [pr] => confirmFirst snapshot operation pr
      | none, _ => .unknown
    | .unknown | .refuses _ | .raises => .ended
  | .reconcilingPush operation =>
    match w.seen with
    | .returns seen => .recordingReconcile operation seen
    | .unknown | .refuses _ | .raises => .ended
  | stage => stage

/-- The pull request of a delivery that already has one is looked at again; another one is
published once its operation is written down. -/
def bindingStage (snapshot : Snapshot) (receipt : VerificationReceipt) (found : Option PullRequest)
    (bound_id : Option String) : Stage :=
  if bound_id.isSome && bound_id ≠ found.map (·.id) then .blocking .prIdentityConflict
  else match snapshot.pr with
    | some pr =>
      match found, snapshot.operations.find? (·.step = .pr) with
      | some seen, some previous =>
        if seen.id = pr.id then confirmFirst snapshot previous (some seen)
        else .blocking .prIdentityConflict
      | some seen, none => if seen.id = pr.id then .ended else .blocking .prIdentityConflict
      | none, _ => .blocking .prIdentityConflict
    | none => .appendingPr receipt (found.map (·.id))

def outcomeStage (result : Except Fault (Db × Outcome)) (db : Db) (next : Stage) : Db × Stage :=
  match result with
  | .ok (db, .goesOn) => (db, next)
  | .ok (db, .stops) => (db, .ended)
  | .error _ => (db, .ended)

def commit (db : Db) : Except Fault Db → Db
  | .ok db' => db'
  | .error _ => db

def advanceStage (w : World) (c : Coordinator) (snapshot : Snapshot) (db : Db) : Stage → Db × Stage
  | .checking receipt =>
    outcomeStage (checkActivation snapshot db) db
      (if snapshot.pushConfirmed then .inspecting receipt else .validating receipt)
  | .appendingPush receipt =>
    let operation := newOperation w snapshot .push receipt none
    outcomeStage (appendPush snapshot operation db) db (.pushing operation)
  | .recordingPush operation observation =>
    (commit db (recordPush snapshot operation.id observation db), .ended)
  | .binding receipt found =>
    (db, bindingStage snapshot receipt found (runPrId db snapshot.request.run_id))
  | .appendingPr receipt existing_id =>
    let operation := newOperation w snapshot .pr receipt existing_id
    outcomeStage (appendPr snapshot operation existing_id db) db (.publishing operation existing_id)
  | .confirming operation pr verification_reason observation remote_reason =>
    (commit db (confirmPr snapshot operation.id pr verification_reason observation remote_reason db), .ended)
  | .unknown => (commit db (Delivery.unknown snapshot db), .ended)
  | .recordingReconcile operation seen => (commit db (reconcilePush snapshot operation.id seen db), .ended)
  | .blocking reason => (block snapshot reason db, .ended)
  | stage => (db, talk w c snapshot stage)

-- The system

structure State where
  db : Db
  advances : List (Advance × Stage)

def State.empty : State := ⟨.empty, []⟩

def advance (w : World) (db : Db) (a : Advance) (stage : Stage) : Db × Advance × Stage :=
  match stage, a.snapshot with
  | .reading, _ =>
    match db.snapshot? a.delivery_id with
    | some snapshot => (db, { a with snapshot := some snapshot }, readStage a.coordinator snapshot)
    | none => (db, a, .ended)
  | stage, some snapshot =>
    let (db, stage) := advanceStage w a.coordinator snapshot db stage
    (db, a, stage)
  | stage, none => (db, a, stage)

inductive Action
  | reopen
  | plan (mode : Mode) (id : String) (request : Request) (command_key principal : String)
  | setControl (run_id : String) (state : ControlState) (command_key principal : String)
  | call (coordinator : Coordinator) (delivery_id principal : String)
  | advance (index : Nat) (w : World)
  | crash (index : Nat)

def State.advance (s : State) (index : Nat) (w : World) : State :=
  match s.advances[index]? with
  | some (a, stage) =>
    let (db, a, stage) := Delivery.advance w s.db a stage
    ⟨db, s.advances.set index (a, stage)⟩
  | none => s

def State.step (L : Library) (s : State) : Action → State
  | .reopen => { s with db := commit s.db (openTables s.db) }
  | .plan mode id request command_key principal =>
    { s with db := commit s.db (Prod.fst <$> plan L mode id request command_key principal s.db) }
  | .setControl run_id state command_key principal =>
    { s with db := commit s.db (Prod.fst <$> setControl L run_id state command_key principal s.db) }
  | .call coordinator delivery_id principal =>
    if principal = "controller" && L.identifier delivery_id then
      { s with advances := s.advances ++ [(⟨coordinator, delivery_id, none⟩, .reading)] }
    else s
  | .advance index w => s.advance index w
  | .crash index => { s with advances := s.advances.modify index fun (a, _) => (a, .ended) }

def system (L : Library) : System State Action where
  initial := (· = .empty)
  step := State.step L

-- What happens

inductive Event
  /-- An operation was written down; what the activation found is what the same transaction read. -/
  | appended (delivery_id : String) (operation : Operation) (snapshot : Option Snapshot)
      (control : Option ControlState) (run : List DeliveryRow)
  | sent (delivery_id : String) (operation : Operation)

def appends (db : Db) (snapshot : Snapshot) (operation : Operation)
    (result : Except Fault (Db × Outcome)) : Option Event :=
  match result with
  | .ok (_, .goesOn) => some (.appended snapshot.id operation (db.snapshot? snapshot.id)
      (db.run_controls.get? snapshot.request.run_id) (db.ofRun snapshot.request.run_id))
  | _ => none

def emitStage (w : World) (snapshot : Snapshot) (db : Db) : Stage → Option Event
  | .appendingPush receipt =>
    let operation := newOperation w snapshot .push receipt none
    appends db snapshot operation (appendPush snapshot operation db)
  | .appendingPr receipt existing_id =>
    let operation := newOperation w snapshot .pr receipt existing_id
    appends db snapshot operation (appendPr snapshot operation existing_id db)
  | .pushing operation => some (.sent snapshot.id operation)
  | .publishing operation _ => some (.sent snapshot.id operation)
  | _ => none

def emit (s : State) : Action → Option Event
  | .advance index w =>
    match s.advances[index]? with
    | some (a, stage) => a.snapshot.bind fun snapshot => emitStage w snapshot s.db stage
    | none => none
  | _ => none

end Karajan.Delivery
