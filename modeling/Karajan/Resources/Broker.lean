import Karajan.Lib.Check
import Karajan.Lib.Json
import Karajan.Lib.Runs
import Karajan.Lib.Dict

/-!
# The resource broker

An attempt reserves money of one currency; each call it submits takes an upper
bound out of what the attempt has left, and a settlement replaces the bound by
the charge that was confirmed. A submission is two transactions with a request
to the provider after them; a process may stop between any two of its steps.

Amounts are whole numbers of the sixth decimal place.
-/

namespace Karajan.Resources

open Resources Check

-- Values

inductive Decimal
  | finite (value : Rat)
  | nonfinite

inductive Instant
  | finite (time : Rat)
  | nonfinite

def Instant.finite? : Instant → Option Rat
  | .finite time => some time
  | .nonfinite => none

structure Url where
  scheme : String
  hostname : Option String
  port : Option Nat
  (path query fragment : String)
  (username password : Option String)

structure Request where
  (model prompt : String)
  max_output_tokens : Int

structure Library where
  /-- The number a text is read as, none where it is not one. -/
  decimal : String → Option Decimal
  /-- The parts of an endpoint, none where splitting it or reading its port raises. -/
  urlsplit : String → Option Url
  isspace : Char → Bool
  digest : Request → String

inductive Fault
  | amountNotText
  | amountInvalid
  | amountNotFinite
  | amountPrecision
  | invalidAuthorizationBinding
  | budgetExhausted
  | usageIdentityInvalid
  | usageEventConflict
  | callUnknown
  | callNotSent
  | currencyMismatch
  | providerRequestIdConflict
  | usageTotalRegression
  /-- The database refuses a row whose key is taken. -/
  | integrity
  | typeError

variable (L : Library)

/-- An amount in millionths: a decimal text, nothing that would have to be rounded. -/
def units (value : Json) : Except Fault Nat := do
  let text ← need value.str? .amountNotText
  match ← need (L.decimal text) .amountInvalid with
  | .nonfinite => .error .amountNotFinite
  | .finite amount =>
    ensure (0 ≤ amount && amount ≤ 9223372036854775807 / 1000000) .amountPrecision
    let scaled := amount * 1000000
    ensure (scaled.den = 1) .amountPrecision
    return scaled.num.toNat

structure Price where
  (revision currency : String)
  (fixed_charge input_byte_rate output_token_rate : Json)
  covers_all_charges : Bool
  valid_until : Option Instant

structure Profile where
  (id model endpoint : String)
  price : Price
  logical_id_evidence_ref : Option String
  billing_path : String

-- Tables

inductive AttemptState
  | active
  | suspended
  | finished
  | revoked
  deriving DecidableEq

inductive CallState
  | prepared
  | sendPending
  | sendUnknown
  | settled
  | notSent
  deriving DecidableEq

inductive Reason
  | authorizationInvalid
  | cashApiDisabled
  | requestInvalid
  | logicalIdConflict
  | requestUnbounded
  | priceUnboundedOrExpired
  | budgetExhausted
  | accountOverdrawn
  | sendOutcomeUnknown
  | costBoundExceeded

structure AttemptRow where
  profile : Profile
  currency : String
  (reserved future : Int)
  authorization_id : String
  fence : Int
  state : AttemptState
  authorization_expires_at : Rat

structure CallRow where
  attempt_id : String
  state : CallState
  upper_units : Int
  actual_units : Option Int
  price_revision : String
  (provider_request_id logical_call_id : Option String)
  request_digest : String
  request : Request

structure ReceiptRow where
  call_id : Option String
  attempt_id : String
  reason_code : Option Reason

structure UsageRow where
  (call_id currency : String)
  actual_units : Int
  provider_request_id : String

structure Tables where
  budgets : Dict String Int
  attempts : Dict String AttemptRow
  calls : Dict String CallRow
  receipts : Dict String ReceiptRow
  usage : Dict String UsageRow

section
variable (t : Tables)

/-- What the attempts of a currency may still spend, and what their calls hold. -/
def held (currency : String) : Int :=
  (t.attempts.total fun _ attempt => if attempt.currency = currency then attempt.future else 0) +
  t.calls.total fun _ call =>
    if (t.attempts.get? call.attempt_id).any (·.currency = currency) ∧ call.state ≠ .notSent then
      call.actual_units.getD call.upper_units
    else 0

-- Reservations

def configureBudget (currency : String) (amount : Json) (t : Tables) : Except Fault Tables := do
  let limit ← units L amount
  ensure (t.budgets.get? currency).isNone .integrity
  return { t with budgets := t.budgets.put currency limit }

structure Reservation where
  attempt_id : String
  profile : Profile
  amount : Json
  authorization_id : String
  fence : Json
  authorization_expires_at : Instant

def reserveAttempt (request : Reservation) (t : Tables) : Except Fault Tables := do
  ensure (request.attempt_id ≠ "" && request.profile.id ≠ "" && request.profile.model ≠ "" &&
    request.authorization_id ≠ "") .invalidAuthorizationBinding
  let fence ← need request.fence.int? .invalidAuthorizationBinding
  ensure (0 < fence) .invalidAuthorizationBinding
  let expires ← need request.authorization_expires_at.finite? .invalidAuthorizationBinding
  let reservation ← units L request.amount
  let currency := request.profile.price.currency
  let limit ← need (t.budgets.get? currency) .budgetExhausted
  ensure (reservation + held t currency ≤ limit) .budgetExhausted
  ensure (t.attempts.get? request.attempt_id).isNone .integrity
  let attempt : AttemptRow := {
    profile := request.profile
    currency
    reserved := reservation
    future := reservation
    authorization_id := request.authorization_id
    fence
    state := .active
    authorization_expires_at := expires }
  return { t with attempts := t.attempts.put request.attempt_id attempt }

-- The first transaction of a submission

structure Submission where
  attempt_id : String
  (fence prompt max_output_tokens logical_call_id : Json)

/-- Why a submission ends without a call: a reason that is recorded, or an error. -/
inductive Stop
  | rejected (reason : Reason)
  | raised (fault : Fault)

/-- What a call is told. The state is that of its call, none for a rejection. -/
structure Receipt where
  receipt_id : String
  call_id : Option String
  state : Option CallState
  reason_code : Option Reason

def identity? (value : Json) : Option String :=
  value.str?.filter fun text => !text.toList.all L.isspace && text.length ≤ 256

/-- The authorisation is for this fence, and neither ended nor expired. -/
def AttemptRow.authorizes (attempt : AttemptRow) (fence : Int) (now : Rat) : Bool :=
  attempt.fence = fence && attempt.state = .active && now < attempt.authorization_expires_at

def authorize (submission : Submission) (now : Rat) (t : Tables) : Except Reason (AttemptRow × Int) := do
  let attempt ← need (t.attempts.get? submission.attempt_id) .authorizationInvalid
  let fence ← need submission.fence.int? .authorizationInvalid
  ensure (attempt.authorizes fence now) .authorizationInvalid
  return (attempt, fence)

/-- Only the registered fake provider on this machine is ever called. -/
def localPort (profile : Profile) : Except Reason Nat := do
  let endpoint ← need (L.urlsplit profile.endpoint) .cashApiDisabled
  let port ← need endpoint.port .cashApiDisabled
  ensure (profile.billing_path = "local_fake" && endpoint.scheme = "http" &&
    endpoint.hostname = some "127.0.0.1" && 0 < port && port ≤ 65535 &&
    endpoint.path = "/infer" && endpoint.query = "" && endpoint.fragment = "" &&
    endpoint.username = none && endpoint.password = none) .cashApiDisabled
  return port

def readRequest (submission : Submission) (profile : Profile) : Except Reason (Request × Option String) := do
  let prompt ← need submission.prompt.str? .requestInvalid
  let max_output_tokens ← need submission.max_output_tokens.int? .requestInvalid
  let logical_call_id ← match submission.logical_call_id with
    | .null => .ok none
    | value => some <$> need (identity? L value) .requestInvalid
  return ({ model := profile.model, prompt, max_output_tokens }, logical_call_id)

/-- A client's id counts only where the profile has evidence for it. -/
def verifiedId (profile : Profile) (logical_call_id : Option String) : Option String :=
  if profile.logical_id_evidence_ref.any (· ≠ "") then logical_call_id else none

def originalCall (attempt_id logical_call_id : String) : Option (String × CallRow) :=
  t.calls.entries.find? fun (_, call) =>
    call.attempt_id = attempt_id && call.logical_call_id = some logical_call_id

def validUntil (price : Price) (now : Rat) : Except Reason Rat := do
  ensure (price.covers_all_charges && price.revision ≠ "") .priceUnboundedOrExpired
  let valid_until ← need (price.valid_until.bind Instant.finite?) .priceUnboundedOrExpired
  ensure (now < valid_until) .priceUnboundedOrExpired
  return valid_until

def charge (value : Json) : Except Reason Int :=
  match units L value with
  | .ok amount => .ok amount
  | .error _ => .error .priceUnboundedOrExpired

def upperBound (price : Price) (request : Request) : Except Reason Int := do
  let bytes := request.prompt.utf8ByteSize
  ensure (0 < request.max_output_tokens && request.max_output_tokens ≤ 1000000 &&
    bytes ≤ 1000000) .requestUnbounded
  let fixed ← charge L price.fixed_charge
  let input ← charge L price.input_byte_rate
  let output ← charge L price.output_token_rate
  let upper := fixed + input * bytes + output * request.max_output_tokens
  ensure (upper ≤ 2 ^ 63 - 1) .priceUnboundedOrExpired
  return upper

inductive Plan
  /-- A verified client id names a call that was made before. -/
  | again (call_id : String) (original : CallRow)
  | prepare (attempt : AttemptRow) (fence : Int) (call : CallRow) (port : Nat) (valid_until : Rat)

def orReject (check : Except Reason α) : Except Stop α :=
  match check with
  | .ok a => .ok a
  | .error reason => .error (.rejected reason)

def plan (submission : Submission) (authorized priced : Rat) (t : Tables) : Except Stop Plan := do
  let (attempt, fence) ← orReject (authorize submission authorized t)
  let profile := attempt.profile
  let port ← orReject (localPort L profile)
  let (request, logical_call_id) ← orReject (readRequest L submission profile)
  let verified := verifiedId profile logical_call_id
  let request_digest := L.digest request
  match verified.bind (originalCall t submission.attempt_id) with
  | some (call_id, original) => do
    let () ← orReject (ensure (original.request_digest = request_digest) .logicalIdConflict)
    return .again call_id original
  | none => do
    let valid_until ← orReject (validUntil profile.price priced)
    let upper ← orReject (upperBound L profile.price request)
    let () ← orReject (ensure (upper ≤ attempt.future) .budgetExhausted)
    let limit ← need (t.budgets.get? attempt.currency) (.raised .typeError)
    let () ← orReject (ensure (held t attempt.currency ≤ limit) .accountOverdrawn)
    let call : CallRow := {
      attempt_id := submission.attempt_id
      state := .prepared
      upper_units := upper
      actual_units := none
      price_revision := profile.price.revision
      provider_request_id := none
      logical_call_id := verified
      request_digest
      request }
    return .prepare attempt fence call port valid_until

structure Sending where
  (receipt_id call_id attempt_id : String)
  fence : Int
  port : Nat
  valid_until : Rat
  request : Request

def insertReceipt (receipt_id : String) (row : ReceiptRow) (t : Tables) : Except Fault Tables := do
  ensure (t.receipts.get? receipt_id).isNone .integrity
  return { t with receipts := t.receipts.put receipt_id row }

/-- Prepare a call, repeat an earlier one's receipt, or record the rejection. -/
def submit (submission : Submission) (receipt_id call_id : String) (authorized priced : Rat)
    (t : Tables) : Except Fault ((Receipt ⊕ Sending) × Tables) :=
  let attempt_id := submission.attempt_id
  match plan L submission authorized priced t with
  | .error (.raised fault) => .error fault
  | .error (.rejected reason) => do
    let t ← insertReceipt receipt_id ⟨none, attempt_id, some reason⟩ t
    return (.inl ⟨receipt_id, none, none, some reason⟩, t)
  | .ok (.again original_id original) => do
    let t ← insertReceipt receipt_id ⟨some original_id, attempt_id, none⟩ t
    return (.inl ⟨receipt_id, some original_id, some original.state, none⟩, t)
  | .ok (.prepare attempt fence call port valid_until) => do
    ensure (t.calls.get? call_id).isNone .integrity
    let charged := { attempt with future := attempt.future - call.upper_units }
    let t := { t with
      attempts := t.attempts.put attempt_id charged
      calls := t.calls.put call_id call }
    let t ← insertReceipt receipt_id ⟨some call_id, attempt_id, none⟩ t
    return (.inr ⟨receipt_id, call_id, attempt_id, fence, port, valid_until, call.request⟩, t)

-- The second transaction of a submission

def AttemptRow.regain (attempt : AttemptRow) (upper : Int) : AttemptRow :=
  if attempt.state = .active then { attempt with future := attempt.future + upper } else attempt

def releasePrepared (call_id : String) : Tables :=
  match t.calls.get? call_id with
  | some call =>
    if call.state = .prepared then
      { t with
        calls := t.calls.put call_id { call with state := .notSent }
        attempts := t.attempts.modify call.attempt_id (·.regain call.upper_units) }
    else t
  | none => t

def receiptReason (receipt_id : String) (reason : Reason) : Tables :=
  { t with receipts := t.receipts.modify receipt_id fun row =>
      { row with reason_code := some reason } }

def callReason (call_id : String) (reason : Reason) : Tables :=
  { t with receipts := t.receipts.mapValues fun _ row =>
      if row.call_id = some call_id then { row with reason_code := some reason } else row }

def withdraw (sending : Sending) (reason : Reason) (t : Tables) : Receipt × Tables :=
  (⟨sending.receipt_id, some sending.call_id, some .notSent, some reason⟩,
    receiptReason (releasePrepared t sending.call_id) sending.receipt_id reason)

/-- Check the authorisation and the price again, and commit the intent to send. -/
def intendSend (sending : Sending) (authorized priced : Rat) (t : Tables) :
    Except Fault (Option Receipt × Tables) := do
  let current ← need (t.attempts.get? sending.attempt_id) .typeError
  if !current.authorizes sending.fence authorized then
    let (receipt, t) := withdraw sending .authorizationInvalid t
    return (some receipt, t)
  let call ← need (t.calls.get? sending.call_id) .typeError
  if call.state ≠ .prepared then
    return (some ⟨sending.receipt_id, some sending.call_id, some call.state, none⟩, t)
  if sending.valid_until ≤ priced then
    let (receipt, t) := withdraw sending .priceUnboundedOrExpired t
    return (some receipt, t)
  return (none, { t with calls := t.calls.put sending.call_id { call with state := .sendPending } })

def CallRow.lose (call : CallRow) : CallRow :=
  if call.state = .sendPending then { call with state := .sendUnknown } else call

/-- There is no authoritative response to a request that was sent. -/
def loseResponse (sending : Sending) (t : Tables) : Except Fault (Receipt × Tables) := do
  let t := { t with calls := t.calls.modify sending.call_id CallRow.lose }
  let call ← need (t.calls.get? sending.call_id) .typeError
  if call.state = .sendUnknown then
    return (⟨sending.receipt_id, some sending.call_id, some call.state, some .sendOutcomeUnknown⟩,
      callReason t sending.call_id .sendOutcomeUnknown)
  return (⟨sending.receipt_id, some sending.call_id, some call.state, none⟩, t)

-- Settlement and the end of an attempt

structure Settlement where
  call_id : String
  (usage_event_id actual_charge currency provider_request_id : Json)

structure Confirmed where
  (usage_event_id provider_request_id : String)
  actual : Int
  call : CallRow
  attempt : AttemptRow

/-- Check a confirmed total against the books; one that is in them already is none. -/
def confirm (settlement : Settlement) (t : Tables) : Except Fault (Option Confirmed) := do
  let call_id := settlement.call_id
  let usage_event_id ← need (identity? L settlement.usage_event_id) .usageIdentityInvalid
  let provider_request_id ← need (identity? L settlement.provider_request_id) .usageIdentityInvalid
  let amount ← units L settlement.actual_charge
  let actual : Int := amount
  match t.usage.get? usage_event_id with
  | some previous => do
    ensure (previous.call_id = call_id && settlement.currency.str? = some previous.currency &&
      previous.actual_units = actual && previous.provider_request_id = provider_request_id)
      .usageEventConflict
    return none
  | none => do
    let call ← need (t.calls.get? call_id) .callUnknown
    ensure (call.state ∈ [CallState.sendPending, .sendUnknown, .settled]) .callNotSent
    let attempt ← need (t.attempts.get? call.attempt_id) .typeError
    ensure (settlement.currency.str? = some attempt.currency) .currencyMismatch
    ensure (call.provider_request_id = none || call.provider_request_id = some provider_request_id)
      .providerRequestIdConflict
    ensure (!call.actual_units.any (actual < ·)) .usageTotalRegression
    return some { usage_event_id, provider_request_id, actual, call, attempt }

/-- What the attempt has left once a call of it is settled. A live one gets the
difference to what the call held, and is suspended where its bound was exceeded. -/
def AttemptRow.settle (attempt : AttemptRow) (call : CallRow) (actual : Int) : AttemptRow :=
  let previously_held := call.actual_units.getD call.upper_units
  if attempt.state ≠ .active then attempt
  else if call.upper_units < actual then { attempt with state := .suspended, future := 0 }
  else { attempt with future := max 0 (attempt.future + (previously_held - actual)) }

def CallRow.settle (call : CallRow) (actual : Int) (provider_request_id : String) : CallRow :=
  { call with
    state := .settled
    actual_units := some actual
    provider_request_id := some provider_request_id }

def book (call_id : String) (confirmed : Confirmed) (t : Tables) : Tables :=
  let { usage_event_id, provider_request_id, actual, call, attempt } := confirmed
  { t with
    usage := t.usage.put usage_event_id ⟨call_id, attempt.currency, actual, provider_request_id⟩
    calls := t.calls.put call_id (call.settle actual provider_request_id)
    attempts := t.attempts.put call.attempt_id (attempt.settle call actual) }

/-- Take the confirmed total of a call into the books, however often it grows. -/
def settle (settlement : Settlement) (t : Tables) : Except Fault Tables := do
  match ← confirm L settlement t with
  | none => return t
  | some confirmed =>
    let booked := book settlement.call_id confirmed t
    if confirmed.call.upper_units < confirmed.actual then
      return callReason booked settlement.call_id .costBoundExceeded
    else
      return booked

/-- The calls that were certainly not sent, of every attempt or of one. -/
def preparedCalls (of : CallRow → Bool) : List String :=
  (t.calls.filter fun _ call => of call && call.state = .prepared).keys

def releaseAll (of : CallRow → Bool) : Tables := (preparedCalls t of).foldl releasePrepared t

def recover : Tables :=
  let released := releaseAll t fun _ => true
  let t := { released with calls := released.calls.mapValues fun _ => CallRow.lose }
  { t with receipts := t.receipts.mapValues fun _ row =>
      if row.call_id.any fun call_id => (t.calls.get? call_id).any (·.state = .sendUnknown) then
        { row with reason_code := some .sendOutcomeUnknown }
      else row }

def finishAttempt (attempt_id : String) (t : Tables) : Tables :=
  releaseAll { t with attempts := t.attempts.modify attempt_id fun attempt =>
    { attempt with state := .finished, future := 0 } } fun call => call.attempt_id = attempt_id

def revokeAttempt (attempt_id : String) (t : Tables) : Tables :=
  releaseAll { t with attempts := t.attempts.modify attempt_id fun attempt =>
    { attempt with state := .revoked, fence := attempt.fence + 1, future := 0 } }
    fun call => call.attempt_id = attempt_id

-- The system

structure Usage where
  (usage_event_id actual_charge currency provider_request_id : Json)

def Usage.settlement (usage : Usage) (call_id : String) : Settlement :=
  ⟨call_id, usage.usage_event_id, usage.actual_charge, usage.currency, usage.provider_request_id⟩

inductive Stage
  | prepared
  | sent
  | unsettled
  | answered (receipt : Receipt)
  | stopped

structure State where
  tables : Tables
  sendings : List (Sending × Stage)

/-- What one step of a submission meets: two readings of the clock and the
provider's response, none where there is no authoritative one. -/
structure World where
  (authorized priced : Rat)
  response : Option Usage

inductive Action
  | configureBudget (currency : String) (amount : Json)
  | reserveAttempt (request : Reservation)
  | submit (submission : Submission) (receipt_id call_id : String) (authorized priced : Rat)
  | advance (index : Nat) (w : World)
  | settle (settlement : Settlement)
  | recover
  | finishAttempt (attempt_id : String)
  | revokeAttempt (attempt_id : String)
  | crash (index : Nat)

def commit (result : Except Fault Tables) : Tables :=
  match result with
  | .ok t' => t'
  | .error _ => t

end

def advance (w : World) (t : Tables) (sending : Sending) : Stage → Tables × Stage
  | .prepared =>
    match intendSend sending w.authorized w.priced t with
    | .ok (some receipt, t) => (t, .answered receipt)
    | .ok (none, t) => (t, .sent)
    | .error _ => (t, .stopped)
  | .sent =>
    match w.response with
    | none => (t, .unsettled)
    | some usage =>
      match settle L (usage.settlement sending.call_id) t with
      | .ok t =>
        (t, .answered ⟨sending.receipt_id, some sending.call_id, some .settled, none⟩)
      | .error _ => (t, .unsettled)
  | .unsettled =>
    match loseResponse sending t with
    | .ok (receipt, t) => (t, .answered receipt)
    | .error _ => (t, .stopped)
  | .answered receipt => (t, .answered receipt)
  | .stopped => (t, .stopped)

def State.advance (s : State) (index : Nat) (w : World) : State :=
  match s.sendings[index]? with
  | none => s
  | some (sending, stage) =>
    let (tables, stage) := Resources.advance L w s.tables sending stage
    { tables, sendings := s.sendings.set index (sending, stage) }

def State.submit (s : State) (submission : Submission) (receipt_id call_id : String)
    (authorized priced : Rat) : State :=
  match Resources.submit L submission receipt_id call_id authorized priced s.tables with
  | .ok (.inl _, tables) => { s with tables }
  | .ok (.inr sending, tables) => { tables, sendings := s.sendings ++ [(sending, .prepared)] }
  | .error _ => s

def State.crash (s : State) (index : Nat) : State :=
  { s with sendings := s.sendings.modify index fun
      | (sending, .answered receipt) => (sending, .answered receipt)
      | (sending, _) => (sending, .stopped) }

def State.step (s : State) : Action → State
  | .configureBudget currency amount =>
    { s with tables := commit s.tables (configureBudget L currency amount s.tables) }
  | .reserveAttempt request =>
    { s with tables := commit s.tables (Resources.reserveAttempt L request s.tables) }
  | .submit submission receipt_id call_id authorized priced =>
    s.submit L submission receipt_id call_id authorized priced
  | .advance index w => s.advance L index w
  | .settle settlement =>
    { s with tables := commit s.tables (Resources.settle L settlement s.tables) }
  | .recover => { s with tables := recover s.tables }
  | .finishAttempt attempt_id => { s with tables := finishAttempt attempt_id s.tables }
  | .revokeAttempt attempt_id => { s with tables := revokeAttempt attempt_id s.tables }
  | .crash index => s.crash index

def State.empty : State := ⟨⟨.empty, .empty, .empty, .empty, .empty⟩, []⟩

def system : System State Action where
  initial s := s = State.empty
  step := State.step L

end Karajan.Resources
