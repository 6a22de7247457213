import Karajan.GoJournal.Bindings
import Karajan.Lib.Check
import Karajan.Lib.Dict
import Karajan.Lib.Runs

/-!
# The call journal

A grant allows a number of calls, each of which is written down before it is
sent. Every operation is one transaction; what it answers may be lost, and an
operation that was repeated answers from what is written.
-/

namespace Karajan.GoJournal

open Check

structure GrantRow where
  binding : Json
  capability_digest : String
  created_at : Rat
  revoked_at : Option Rat

structure Receipt where
  (grant_id call_id : String)
  sequence : Nat
  send_intent_at : Rat
  state : String
  completed_at : Option Rat
  (outcome request_context : Option Json)

structure Db where
  grants : Dict String GrantRow
  calls : Dict (String × String) Receipt
  expired : Dict String Rat

def Db.empty : Db := ⟨.empty, .empty, .empty⟩

def Db.callsOf (db : Db) (grant_id : String) : List Receipt :=
  (db.calls.entries.filter fun e => e.1.1 = grant_id).map Prod.snd

inductive JournalError
  | inputInvalid
  | clockInvalid
  | grantNotFound
  | invalidCapability
  | grantBindingMismatch
  | grantConflict
  | grantExpired
  | grantRevoked
  | callContextConflict
  | qualificationContextRequired
  | qualificationContextMismatch
  | requestLimitReached
  | callNotFound
  | callCompletionConflict
  | missing

def sampled (reading : Option Rat) : Except JournalError Rat := do
  let now ← need reading .clockInvalid
  ensure (0 ≤ now) .clockInvalid
  return now

section
variable (L : Library)

def readBinding (form : Json) : Except JournalError Json := need (L.binding form) .inputInvalid

def authenticate (row : GrantRow) (binding : Json) (capability : String) : Except JournalError Unit := do
  ensure (capability.toList.all (·.toNat < 128) && capability.length = 43) .invalidCapability
  ensure (row.capability_digest = L.digest capability) .invalidCapability
  ensure (row.binding = binding.sorted) .grantBindingMismatch

-- Grants

structure Created where
  grant_id : String
  binding : Json
  capability : Option String

structure Token where
  text : String
  ascii : text.toList.all (·.toNat < 128) = true
  length : text.length = 43

def newGrant (value : Json) (capability : Token) (now : Rat) : GrantRow where
  binding := value.sorted
  capability_digest := L.digest capability.text
  created_at := now
  revoked_at := none

def createGrant (form : Json) (grant_id : String) (reading : Option Rat)
    (capability : Token) (db : Db) : Except JournalError (Db × Created) := do
  ensure (identifierText grant_id) .inputInvalid
  let value ← readBinding L form
  match db.grants.get? grant_id with
  | some old => do
    ensure (old.binding = value.sorted) .grantConflict
    return (db, ⟨grant_id, value, none⟩)
  | none => do
    let now ← sampled reading
    let expires_at ← need (expiresAt value) .missing
    ensure (now < expires_at) .grantExpired
    return ({ db with grants := db.grants.put grant_id (newGrant L value capability now) },
      ⟨grant_id, value, some capability.text⟩)

def revokeGrant (grant_id : String) (reading : Option Rat) (db : Db) : Except JournalError (Db × Rat) := do
  ensure (identifierText grant_id) .inputInvalid
  let row ← need (db.grants.get? grant_id) .grantNotFound
  match row.revoked_at with
  | some revoked_at => return (db, revoked_at)
  | none => do
    let now ← sampled reading
    return ({ db with grants := db.grants.put grant_id { row with revoked_at := some now } }, now)

-- Calls

def readContext (request_context : Option Json) : Except JournalError (Option Json) :=
  match request_context with
  | some form => do return some (← need (measurement form) .inputInvalid)
  | none => return none

/-- The versions whose calls are measured against the limits of their grant. -/
def measuredVersions : List String := [
  "karajan.go-qualification-grant.v2",
  "karajan.go-reviewer-qualification-grant.v1",
  "karajan.go-commander-qualification-grant.v1",
  "karajan.go-planning-native-grant.v1",
  "karajan.go-reviewer-native-grant.v1"]

def checkContext (value : Json) (context : Option Json) : Except JournalError Unit :=
  match (fieldOf value "schema_version").bind Json.str? with
  | some version =>
    if measuredVersions.contains version then do
      let context ← need context .qualificationContextRequired
      let limits ← need ((fieldOf value "context").bind Json.object?) .missing
      ensure (limits.all fun limit => fieldOf context limit.1 = some limit.2)
        .qualificationContextMismatch
    else .ok ()
  | none => .ok ()

inductive Begun
  | sent (receipt : Receipt)
  | replayed (receipt : Receipt)
  /-- A rejection that is committed before it is raised. -/
  | expired

def beginCall (grant_id call_id capability : String) (form : Json)
    (request_context : Option Json) (reading : Option Rat) (db : Db) : Except JournalError (Db × Begun) := do
  ensure (identifierText grant_id && identifierText call_id) .inputInvalid
  let value ← readBinding L form
  let context ← readContext request_context
  let grant ← need (db.grants.get? grant_id) .grantNotFound
  authenticate L grant value capability
  match db.calls.get? (grant_id, call_id) with
  | some old => do
    ensure (old.request_context = context) .callContextConflict
    return (db, .replayed old)
  | none => do
    checkContext value context
    let now ← sampled reading
    ensure grant.revoked_at.isNone .grantRevoked
    let expires_at ← need (expiresAt value) .missing
    if db.expired.contains grant_id || expires_at ≤ now then
      return ({ db with expired := db.expired.putNew grant_id now }, .expired)
    else
      let count := (db.callsOf grant_id).length
      let max_requests ← need (maxRequests value) .missing
      ensure (count < max_requests) .requestLimitReached
      let receipt : Receipt := {
        grant_id := grant_id
        call_id := call_id
        sequence := count + 1
        send_intent_at := now
        state := "send_unknown"
        completed_at := none
        outcome := none
        request_context := context }
      return ({ db with calls := db.calls.put (grant_id, call_id) receipt }, .sent receipt)

def Receipt.complete (receipt : Receipt) (value : Json) (now : Rat) : Receipt :=
  { receipt with
    state := ((fieldOf value "state").bind Json.str?).getD receipt.state
    completed_at := some now
    outcome := some value }

def completeCall (grant_id call_id capability : String) (form result : Json)
    (reading : Option Rat) (db : Db) : Except JournalError (Db × Receipt) := do
  ensure (identifierText grant_id && identifierText call_id) .inputInvalid
  let bound ← readBinding L form
  let value ← need (outcome result) .inputInvalid
  let grant ← need (db.grants.get? grant_id) .grantNotFound
  authenticate L grant bound capability
  let receipt ← need (db.calls.get? (grant_id, call_id)) .callNotFound
  match receipt.outcome with
  | some recorded => do
    ensure (recorded = value) .callCompletionConflict
    return (db, receipt)
  | none => do
    let now ← sampled reading
    let receipt := receipt.complete value now
    return ({ db with calls := db.calls.put (grant_id, call_id) receipt }, receipt)

-- The system

inductive Action
  | create (form : Json) (grant_id : String) (reading : Option Rat) (capability : Token)
  | revoke (grant_id : String) (reading : Option Rat)
  | beginCall (grant_id call_id capability : String) (form : Json) (request_context : Option Json)
      (reading : Option Rat)
  | complete (grant_id call_id capability : String) (form result : Json) (reading : Option Rat)

def commit (db : Db) (result : Except JournalError (Db × α)) : Db :=
  match result with
  | .ok (db', _) => db'
  | .error _ => db

def step (db : Db) : Action → Db
  | .create form grant_id reading capability =>
    commit db (createGrant L form grant_id reading capability db)
  | .revoke grant_id reading => commit db (revokeGrant grant_id reading db)
  | .beginCall grant_id call_id capability form request_context reading =>
    commit db (beginCall L grant_id call_id capability form request_context reading db)
  | .complete grant_id call_id capability form result reading =>
    commit db (completeCall L grant_id call_id capability form result reading db)

/-- Any callers, in any order; a call that ends before its transaction takes no step. -/
def system : System Db Action where
  initial := (· = .empty)
  step := step L

/-- What the operations answered, whether or not it arrived. -/
inductive Event
  | granted (grant_id capability : String) (binding : Json)
  | repeated (grant_id : String)
  | revoked (grant_id : String)
  | sent (context : Option Json) (receipt : Receipt)
  | replayed (context : Option Json) (receipt : Receipt)
  | expired (grant_id : String)
  | completed (receipt : Receipt)

def emit (db : Db) : Action → Option Event
  | .create form grant_id reading capability =>
    match createGrant L form grant_id reading capability db with
    | .ok (_, ⟨grant_id, binding, some capability⟩) => some (.granted grant_id capability binding)
    | .ok (_, ⟨grant_id, _, none⟩) => some (.repeated grant_id)
    | .error _ => none
  | .revoke grant_id reading =>
    match revokeGrant grant_id reading db with
    | .ok _ => some (.revoked grant_id)
    | .error _ => none
  | .beginCall grant_id call_id capability form request_context reading =>
    match beginCall L grant_id call_id capability form request_context reading db with
    | .ok (_, .sent receipt) => some (.sent (request_context.bind measurement) receipt)
    | .ok (_, .replayed receipt) => some (.replayed (request_context.bind measurement) receipt)
    | .ok (_, .expired) => some (.expired grant_id)
    | .error _ => none
  | .complete grant_id call_id capability form result reading =>
    match completeCall L grant_id call_id capability form result reading db with
    | .ok (_, receipt) => some (.completed receipt)
    | .error _ => none

end

end Karajan.GoJournal
