import Karajan.Tasks.System

/-!
# What happens to an operation

Whatever is called, an operation is turned in one of a few ways, and its
execution advances in one of a few. What the capacity store keeps under the
keys of an operation agrees with the operation before and after each turn,
and what others do to the store in between does not disturb it.
-/

namespace Karajan.Tasks

open Capacity

variable {id : String}

-- Keys

def keyStarts : List String := ["task-admit:", "task-cancel:", "reviewer-activate:", "go-task-activate:"]

def keysOf (operation_id : String) : List String := keyStarts.map (· ++ operation_id)

theorem start_eq (hx : x ∈ keyStarts) (hy : y ∈ keyStarts) (h : x ++ a = y ++ b) : x = y ∧ a = b := by
  have hchars : x.toList ++ a.toList = y.toList ++ b.toList := by
    rw [← String.toList_append, ← String.toList_append, h]
  have hfree : ∀ x ∈ keyStarts, ∀ y ∈ keyStarts, x.toList.isPrefixOf y.toList = true → x = y := by
    decide
  have hstart : x = y := by
    have hx' : x.toList <+: x.toList ++ a.toList := List.prefix_append ..
    have hy' : y.toList <+: x.toList ++ a.toList := hchars ▸ List.prefix_append ..
    rcases List.prefix_or_prefix_of_prefix hx' hy' with hprefix | hprefix
    · exact hfree x hx y hy (List.isPrefixOf_iff_prefix.mpr hprefix)
    · exact (hfree y hy x hx (List.isPrefixOf_iff_prefix.mpr hprefix)).symm
  subst hstart
  exact ⟨rfl, String.toList_inj.mp (List.append_cancel_left hchars)⟩

theorem start_ne (hx : x ∈ keyStarts) (hy : y ∈ keyStarts) (hne : x ≠ y) : x ++ a ≠ y ++ b :=
  fun h => hne (start_eq hx hy h).1

theorem keysOf_own (h : key ∈ keysOf operation_id) : ownKey key = true := by
  obtain ⟨start, hstart, rfl⟩ := List.mem_map.mp h
  refine List.any_eq_true.mpr ⟨start, hstart, ?_⟩
  rw [String.toList_append]
  exact List.isPrefixOf_iff_prefix.mpr (List.prefix_append ..)

theorem keysOf_apart (hne : a ≠ b) (h : key ∈ keysOf a) : key ∉ keysOf b := by
  obtain ⟨start, hstart, rfl⟩ := List.mem_map.mp h
  intro hb
  obtain ⟨start', hstart', heq⟩ := List.mem_map.mp hb
  exact hne (start_eq hstart' hstart heq).2.symm

theorem admitKey_mem : admitKey a ∈ keysOf a := List.mem_map.mpr ⟨"task-admit:", by decide, rfl⟩

theorem cancelKey_mem : cancelKey a ∈ keysOf a := List.mem_map.mpr ⟨"task-cancel:", by decide, rfl⟩

theorem reviewerKey_mem : reviewerKey a ∈ keysOf a := List.mem_map.mpr ⟨"reviewer-activate:", by decide, rfl⟩

theorem activationKey_mem : activationKey a ∈ keysOf a := List.mem_map.mpr ⟨"go-task-activate:", by decide, rfl⟩

-- The store under the keys of an operation

def Answered (store : Clocked) (operation_id : String) (decision : Decision) : Prop :=
  ∃ row, store.row (admitKey operation_id) = some row ∧ row.result = .decided decision

def Owns (store : Clocked) (operation_id k : String) : Prop :=
  ∃ decision, Answered store operation_id decision ∧ decision.admission_id = some k

def Activated (store : Clocked) (key : String) : Prop :=
  ∃ row activation, store.row key = some row ∧ row.result = .activation activation ∧
    activation.reason_codes = []

theorem Answered.unique (h : Answered store id d) (h' : Answered store id d') : d = d' := by
  obtain ⟨row, hrow, hd⟩ := h
  obtain ⟨row', hrow', hd'⟩ := h'
  cases hrow.symm.trans hrow'
  simpa [hd] using hd'

theorem Owns.unique (h : Owns store id k) (h' : Owns store id k') : k = k' := by
  obtain ⟨d, hd, hk⟩ := h
  obtain ⟨d', hd', hk'⟩ := h'
  cases hd.unique hd'
  simpa [hk] using hk'

theorem Answered.later (h : Answered store id d) (hlater : store.Later store') : Answered store' id d := by
  obtain ⟨row, hrow, hd⟩ := h
  exact ⟨row, hlater.rows _ _ hrow, hd⟩

theorem Owns.later (h : Owns store id k) (hlater : store.Later store') : Owns store' id k := by
  obtain ⟨d, hd, hk⟩ := h
  exact ⟨d, hd.later hlater, hk⟩

/-- What is done to the store, of which only the rows of some own keys are touched. -/
structure Goes (keys : List String) (store store' : Clocked) : Prop where
  sound : store'.Sound
  later : store.Later store'
  rows : ∀ key, ownKey key = true → key ∉ keys → store'.row key = store.row key

theorem Goes.refl (h : store.Sound) : Goes keys store store := ⟨h, .refl store, fun _ _ _ => rfl⟩

theorem Goes.trans (h : Goes keys store store') (h' : Goes keys store' store'') : Goes keys store store'' where
  sound := h'.sound
  later := h.later.trans h'.later
  rows key hown hkey := (h'.rows key hown hkey).trans (h.rows key hown hkey)

theorem Goes.widen (h : Goes [] store store') : Goes keys store store' :=
  { h with
    rows := fun key hown _ => h.rows key hown (by simp) }

structure Rows (store : Clocked) (operation_id : String) (asked : Option AdmissionRequest) : Prop where
  request : ∀ row, store.row (admitKey operation_id) = some row →
    ∃ decision, row.result = .decided decision ∧ asked = some decision.request
  givenUp : ∀ row, store.row (cancelKey operation_id) = some row →
    ∃ k, Owns store operation_id k ∧ store.Unheld k
  activated : ∀ key, key = reviewerKey operation_id ∨ key = activationKey operation_id →
    Activated store key → ∃ k item, Owns store operation_id k ∧ store.item k = some item ∧
      item.state ≠ .reserved
  once : ¬ (Activated store (reviewerKey operation_id) ∧ Activated store (activationKey operation_id))

theorem Rows.unused (h : ∀ key ∈ keysOf id, store.row key = none) (asked : Option AdmissionRequest) :
    Rows store id asked where
  request row hrow := by simp [h _ admitKey_mem] at hrow
  givenUp row hrow := by simp [h _ cancelKey_mem] at hrow
  activated := by
    rintro key (rfl | rfl) ⟨row, _, hrow, _⟩
    · simp [h _ reviewerKey_mem] at hrow
    · simp [h _ activationKey_mem] at hrow
  once := by
    rintro ⟨⟨row, _, hrow, _⟩, -⟩
    simp [h _ reviewerKey_mem] at hrow

theorem Rows.keep (h : Rows store id asked) (hlater : store.Later store')
    (hrows : ∀ key ∈ keysOf id, store'.row key = store.row key) : Rows store' id asked := by
  have hactivated : ∀ key ∈ keysOf id, Activated store' key → Activated store key := by
    rintro key hkey ⟨row, activation, hrow, hresult⟩
    exact ⟨row, activation, (hrows key hkey).symm.trans hrow, hresult⟩
  constructor
  case request =>
    intro row hrow
    exact h.request row ((hrows _ admitKey_mem).symm.trans hrow)
  case givenUp =>
    intro row hrow
    obtain ⟨k, howns, hunheld⟩ := h.givenUp row ((hrows _ cancelKey_mem).symm.trans hrow)
    exact ⟨k, howns.later hlater, hlater.unheld k hunheld⟩
  case activated =>
    intro key hkey hact
    have hmem : key ∈ keysOf id := by
      rcases hkey with rfl | rfl
      · exact reviewerKey_mem
      · exact activationKey_mem
    obtain ⟨k, item, howns, hitem, hstate⟩ := h.activated key hkey (hactivated key hmem hact)
    obtain ⟨item', hitem', hstate'⟩ := hlater.spent k item hitem hstate
    exact ⟨k, item', howns.later hlater, hitem', hstate'⟩
  case once =>
    rintro ⟨hreviewer, hexecution⟩
    exact h.once ⟨hactivated _ reviewerKey_mem hreviewer, hactivated _ activationKey_mem hexecution⟩

theorem Rows.goes (h : Rows store id asked) (hgoes : Goes keys store store')
    (hkeys : ∀ key ∈ keysOf id, key ∉ keys) : Rows store' id asked :=
  h.keep hgoes.later fun key hkey => hgoes.rows key (keysOf_own hkey) (hkeys key hkey)

-- Turns

/-- How an execution advances, where it is cancelled or not. -/
inductive Advance (lib : Library) (candidates : Candidates.Store) (cancelled : Bool) (e : Execution) :
    Execution → Prop
  | same : Advance lib candidates cancelled e e
  | observed (observations : List Observation) :
      Advance lib candidates cancelled e { e with observations }
  | launched (launch : Launch) (hcancel : cancelled = false) (hnone : e.launch = none)
      (hphase : e.phase = .activated) :
      Advance lib candidates cancelled e { e with launch := some launch }
  | activated (receipt : ActivationReceipt) (hnone : e.capacity_activation = none)
      (hrevalidated : receipt.revalidated = true) :
      Advance lib candidates cancelled e { e with
        capacity_activation := some receipt
        phase := if e.phase = .prepared then .activated else e.phase }
  | rejected (receipt : ActivationReceipt) (hnone : e.capacity_activation = none) :
      Advance lib candidates cancelled e
        { e with capacity_activation := some receipt, phase := .activationRejected }
  | hostPrepared (prepared_id : String) (hcancel : cancelled = false) :
      Advance lib candidates cancelled e { e with host_prepared_id := some prepared_id }
  | started (hcancel : cancelled = false) (hphase : e.phase = .activated) :
      Advance lib candidates cancelled e { e with phase := .startUnknown }
  | hostSeen (snapshot : HostSnapshot) :
      Advance lib candidates cancelled e { e with host_observation := some snapshot }
  | claimed (runner : ProcessIdentity) (hcancel : cancelled = false) (hnone : e.effect_claim = none)
      (hphase : e.phase = .startUnknown) :
      Advance lib candidates cancelled e
        { e with effect_claim := some (e.claimOf runner), phase := .effectClaimed }
  | captured (capture : CaptureDocument) (hcancel : cancelled = false) (hnone : e.collection = none)
      (hphase : e.phase = .effectClaimed) :
      Advance lib candidates cancelled e
        { e with collection := some ⟨capture, lib.digest (.capture capture), none⟩ }
  | linked (collection : Collection) (candidate : Candidates.Candidate)
      (hcollection : e.collection = some collection)
      (hlookup : collection.lookup lib candidates = .ok (some candidate))
      (hsame : collection.candidate.all (· = reference candidate) = true) :
      Advance lib candidates cancelled e { e with
        collection := some { collection with candidate := some (reference candidate) }
        phase := .candidateRecorded }

/-- An operation without an execution has nothing to do any more in these states. -/
def OperationState.ended (state : OperationState) : Bool :=
  state = .cancelled || state = .expired || state = .released || state = .blocked

def OperationState.executes (state : OperationState) : Bool :=
  state = .executionPending || state = .executing || state = .executionUnknown ||
    state = .cancellationPending

/-- Where an operation may be once its cancellation was asked for. -/
def OperationState.stopping (state : OperationState) : Bool :=
  state = .cancellationPending || state = .cancelled || state = .reconciliationRequired ||
    state = .expired || state = .released

def Operation.receiptFor (op : Operation) (k : String) : Prop :=
  ∃ decision, op.capacity_receipt = some decision ∧ decision.admission_id = some k

/-- How an operation is turned, by what the store has then, in a step of a kind. -/
inductive Turn (lib : Library) (kind : Kind) (candidates : Candidates.Store) (store : Clocked) (op : Operation) :
    Operation → Prop
  | noted (reviewer_activation : ReviewerActivation) (reason_codes : List ReasonCode)
      (capacity_status : Option Facts)
      (hintent : ∀ intent', reviewer_activation.intent? = some intent' →
        ∃ intent, op.intent? = some intent ∧ intent'.admission_id = intent.admission_id ∧
          intent'.command_key = intent.command_key) :
      Turn lib kind candidates store op { op with reviewer_activation, reason_codes, capacity_status }
  | intended (k : String) (hk : op.receiptFor k) :
      Turn lib kind candidates store op
        { op with reviewer_activation := .intended ⟨k, reviewerKey op.id, none⟩ }
  | recovered (reason_codes : List ReasonCode) (capacity_status : Option Facts)
      (hexecution : op.execution = none) (hlive : op.state.live = true)
      (hcancel : op.cancel_requested = false) (hk : op.receiptFor k) :
      Turn lib kind candidates store op { op with state := .reserved, reason_codes, capacity_status }
  | adrift (reason_codes : List ReasonCode) (capacity_status : Option Facts)
      (hexecution : op.execution = none) (hlive : op.state.live = true) :
      Turn lib kind candidates store op
        { op with state := .reconciliationRequired, reason_codes, capacity_status }
  | lapsed (state : OperationState) (reason_codes : List ReasonCode)
      (capacity_status : Option Facts) (hstate : state = .expired ∨ state = .released)
      (hexecution : op.execution = none) (hlive : op.state.live = true) (hunheld : ∀ k, Owns store op.id k → store.Unheld k) :
      Turn lib kind candidates store op { op with state, reason_codes, capacity_status }
  | answered (decision : Decision) (revalidation : Option Assessment)
      (hqueued : op.state = .queued) (hcancel : op.cancel_requested = false)
      (hanswered : Answered store op.id decision) :
      Turn lib kind candidates store op ({ op with revalidation }.admitted decision)
  | blocked (revalidation : Option Assessment) (reason_codes : List ReasonCode)
      (hqueued : op.state = .queued) (hcancel : op.cancel_requested = false)
      (hnone : store.row (admitKey op.id) = none) :
      Turn lib kind candidates store op ({ op with revalidation }.blocked reason_codes)
  | cancelRequested (hkind : kind = .cancel) (hstate : op.state ≠ .cancelled) :
      Turn lib kind candidates store op op.requestCancel
  | cancelled (capacity_receipt : Option Decision)
      (cancellation_receipt : Option ReservationState)
      (hcancel : op.cancel_requested = true) (hexecution : op.execution = none)
      (hreceipt : ∀ decision, capacity_receipt = some decision → Answered store op.id decision)
      (hunheld : ∀ k, Owns store op.id k → store.Unheld k) :
      Turn lib kind candidates store op
        ({ op with capacity_receipt, cancellation_receipt }.cancelled)
  | cancelRefused (decision : Decision) (reason_codes : List ReasonCode)
      (hkind : kind = .cancel) (hstate : op.state ≠ .cancelled) (hcancel : op.cancel_requested = true) (hexecution : op.execution = none)
      (hanswered : Answered store op.id decision) :
      Turn lib kind candidates store op
        { op with capacity_receipt := some decision, state := .reconciliationRequired, reason_codes }
  | workspace (workspace : Option Workspace) : Turn lib kind candidates store op { op with workspace }
  | executing (intent : Intent) (hkind : kind = .execute) (hstate : op.state = .reserved) (hexecution : op.execution = none)
      (hcancel : op.cancel_requested = false) (hkey : intent.activation_key = activationKey op.id)
      (hk : op.receiptFor intent.admission_id) :
      Turn lib kind candidates store op
        { op with state := .executionPending, execution := some (newExecution lib intent) }
  | edited (e e' : Execution) (state : OperationState) (reason_codes : List ReasonCode)
      (he : op.execution = some e) (hadvance : Advance lib candidates op.cancel_requested e e')
      (hstate : state = op.state ∨
        op.cancel_requested = false ∧ (state = .executing ∨ state = .executionUnknown)) :
      Turn lib kind candidates store op { op with execution := some e', state, reason_codes }

end Karajan.Tasks

-- What an operation holds

namespace Karajan.Tasks

open Capacity (AdmissionRequest Clocked)

variable {op op' : Operation}

structure Holds (store : Clocked) (op : Operation) : Prop where
  rows : Rows store op.id op.request
  receipt : ∀ decision, op.capacity_receipt = some decision → Answered store op.id decision
  reserved : op.state = .reserved → ∃ k, op.receiptFor k
  cancelling : op.cancel_requested = true → op.state.stopping = true
  executing : op.execution.isSome = true → op.state.executes = true
  ended : op.execution = none → op.state.ended = true → ∀ k, Owns store op.id k → store.Unheld k
  intent : ∀ intent, op.intent? = some intent →
    intent.command_key = reviewerKey op.id ∧ Owns store op.id intent.admission_id
  execution : ∀ e, op.execution = some e →
    e.intent.activation_key = activationKey op.id ∧ Owns store op.id e.intent.admission_id

section
variable (h : Holds store op)
include h

theorem Holds.owns (hk : op.receiptFor k) : Owns store op.id k := by
  obtain ⟨decision, hreceipt, hadmitted⟩ := hk
  exact ⟨decision, h.receipt decision hreceipt, hadmitted⟩

theorem Holds.idle (hqueued : op.state = .queued) :
    op.execution = none ∧ op.cancel_requested = false := by
  constructor
  · have hexecuting := h.executing
    rw [hqueued] at hexecuting
    simpa [OperationState.executes] using hexecuting
  · have hcancelling := h.cancelling
    rw [hqueued] at hcancelling
    simpa [OperationState.stopping] using hcancelling

theorem Holds.keep (hlater : store.Later store') (hrows : Rows store' op.id op.request)
    (hsame : op.state.ended = true → store'.row (admitKey op.id) = store.row (admitKey op.id)) :
    Holds store' op :=
  { h with
    rows := hrows
    receipt := fun decision hreceipt => (h.receipt decision hreceipt).later hlater
    ended := fun hexecution hended k howns => by
      obtain ⟨decision, ⟨row, hrow, hdecided⟩, hk⟩ := howns
      exact hlater.unheld k
        (h.ended hexecution hended k ⟨decision, ⟨row, (hsame hended).symm.trans hrow, hdecided⟩, hk⟩)
    intent := fun intent hintent => ⟨(h.intent intent hintent).1, (h.intent intent hintent).2.later hlater⟩
    execution := fun e he => ⟨(h.execution e he).1, (h.execution e he).2.later hlater⟩ }

theorem Holds.goes (hgoes : Goes keys store store')
    (hkeys : ∀ key ∈ keysOf op.id, key ∉ keys) : Holds store' op :=
  h.keep hgoes.later (h.rows.goes hgoes hkeys) fun _ =>
    (hgoes.rows _ (keysOf_own admitKey_mem) (hkeys _ admitKey_mem))

theorem Holds.calm (hgoes : Goes [] store store') : Holds store' op :=
  h.goes hgoes (by simp)

end

-- Turns keep it

theorem Advance.intent (h : Advance lib candidates cancelled e e') :
    e'.intent = e.intent ∧ e'.intent_digest = e.intent_digest ∧
      e'.cancel_requested = e.cancel_requested := by
  cases h <;> exact ⟨rfl, rfl, rfl⟩

structure SameTask (op op' : Operation) : Prop where
  id : op'.id = op.id
  run_id : op'.run_id = op.run_id
  task_id : op'.task_id = op.task_id
  request : op'.request = op.request

theorem Operation.requestCancel_eq (h : op.state ≠ .cancelled) : op.requestCancel = { op with
    cancel_requested := true
    state := .cancellationPending
    execution := op.execution.map fun execution => { execution with cancel_requested := true } } :=
  if_neg h

section
variable (h : Turn lib kind candidates store op op')
include h

theorem Turn.same : SameTask op op' := by
  cases h with
  | cancelRequested hkind hstate =>
    rw [Operation.requestCancel_eq hstate]
    exact ⟨rfl, rfl, rfl, rfl⟩
  | _ => exact ⟨rfl, rfl, rfl, rfl⟩

theorem Turn.holds (hop : Holds store op) : Holds store op' := by
  cases h with
  | noted activation reasons status hintent =>
    refine { hop with intent := fun intent' hintent' => ?_ }
    obtain ⟨intent, hold, hadmission, hkey⟩ := hintent intent' hintent'
    obtain ⟨hreviewer, howns⟩ := hop.intent intent hold
    exact ⟨hkey.trans hreviewer, hadmission ▸ howns⟩
  | intended k hk =>
    refine { hop with intent := fun intent' hintent' => ?_ }
    cases hintent'
    exact ⟨rfl, hop.owns hk⟩
  | recovered reasons status hexecution hlive hcancel hk =>
    refine { hop with reserved := fun _ => ⟨_, hk⟩, cancelling := ?_, executing := ?_, ended := ?_ }
    · intro hcancelled
      exact absurd (hcancelled.symm.trans hcancel) (by simp)
    · simp [hexecution]
    · simp [OperationState.ended]
  | adrift reasons status hexecution hlive =>
    refine { hop with reserved := ?_, cancelling := fun _ => rfl, executing := ?_, ended := ?_ }
    · simp
    · simp [hexecution]
    · simp [OperationState.ended]
  | lapsed state reasons status hstate hexecution hlive hunheld =>
    refine { hop with reserved := ?_, cancelling := ?_, executing := ?_, ended := fun _ _ => hunheld }
    · rcases hstate with rfl | rfl <;> simp
    · rcases hstate with rfl | rfl <;> exact fun _ => rfl
    · simp [hexecution]
  | answered decision revalidation hqueued hcancel hanswered =>
    obtain ⟨hexecution, -⟩ := hop.idle hqueued
    refine { hop with
      receipt := ?_, reserved := ?_, cancelling := ?_, executing := ?_, ended := ?_ }
    · intro other hother
      cases hother
      exact hanswered
    · intro hreserved
      simp only [Operation.admitted] at hreserved
      cases hk : decision.admission_id with
      | none => simp [hk] at hreserved
      | some k => exact ⟨k, decision, rfl, hk⟩
    · intro hcancelled
      exact absurd (hcancelled.symm.trans hcancel) (by simp)
    · simp [Operation.admitted, hexecution]
    · intro _ hended k howns
      obtain ⟨other, hother, hk⟩ := howns
      cases hanswered.unique hother
      simp [Operation.admitted, hk, OperationState.ended] at hended
  | blocked revalidation reasons hqueued hcancel hnone =>
    obtain ⟨hexecution, -⟩ := hop.idle hqueued
    refine { hop with reserved := ?_, cancelling := ?_, executing := ?_, ended := ?_ }
    · simp [Operation.blocked]
    · intro hcancelled
      exact absurd (hcancelled.symm.trans hcancel) (by simp)
    · simp [Operation.blocked, hexecution]
    · rintro - - k ⟨_, ⟨row, hrow, -⟩, -⟩
      exact absurd (hrow.symm.trans hnone) (by simp)
  | cancelRequested hkind hstate =>
    rw [Operation.requestCancel_eq hstate]
    refine { hop with
      reserved := ?_, cancelling := fun _ => rfl, executing := fun _ => rfl, ended := ?_, execution := ?_ }
    · simp
    · simp [OperationState.ended]
    · intro e he
      obtain ⟨e₀, he₀, rfl⟩ := Option.map_eq_some_iff.mp he
      exact hop.execution e₀ he₀
  | cancelled receipt cancellation hcancel hexecution hreceipt hunheld =>
    refine { hop with
      receipt := hreceipt, reserved := ?_, cancelling := fun _ => rfl, executing := ?_
      ended := fun _ _ => hunheld }
    · simp [Operation.cancelled]
    · simp [Operation.cancelled, hexecution]
  | cancelRefused decision reasons hkind hstate hcancel hexecution hanswered =>
    refine { hop with
      receipt := ?_, reserved := ?_, cancelling := fun _ => rfl, executing := ?_, ended := ?_ }
    · intro other hother
      cases hother
      exact hanswered
    · simp
    · simp [hexecution]
    · simp [OperationState.ended]
  | workspace workspace => exact { hop with }
  | executing intent hkind hstate hexecution hcancel hkey hk =>
    refine { hop with
      reserved := ?_, cancelling := ?_, executing := fun _ => rfl, ended := ?_, execution := ?_ }
    · simp
    · intro hcancelled
      exact absurd (hcancelled.symm.trans hcancel) (by simp)
    · simp
    · intro e he
      cases he
      exact ⟨hkey, hop.owns hk⟩
  | edited e e' state reasons he hadvance hstate =>
    have hexecutes : op.state.executes = true := hop.executing (by simp [he])
    have hexecutes' : state.executes = true := by
      rcases hstate with rfl | ⟨-, rfl | rfl⟩
      · exact hexecutes
      · rfl
      · rfl
    refine { hop with
      reserved := ?_, cancelling := ?_, executing := fun _ => hexecutes', ended := ?_, execution := ?_ }
    · rintro rfl
      cases hexecutes'
    · intro hcancelled
      rcases hstate with rfl | ⟨hcancel, -⟩
      · exact hop.cancelling hcancelled
      · exact absurd (hcancelled.symm.trans hcancel) (by simp)
    · simp
    · intro e₁ he₁
      cases he₁
      rw [hadvance.intent.1]
      exact hop.execution e he

theorem Turn.goes (hgoes : Goes [] store store') : Turn lib kind candidates store' op op' := by
  have hsame : store'.row (admitKey op.id) = store.row (admitKey op.id) :=
    hgoes.rows _ (keysOf_own admitKey_mem) (by simp)
  have howns : ∀ k, Owns store' op.id k → Owns store op.id k := by
    rintro k ⟨decision, ⟨row, hrow, hdecided⟩, hk⟩
    exact ⟨decision, ⟨row, hsame.symm.trans hrow, hdecided⟩, hk⟩
  cases h with
  | noted activation reasons status hintent => exact .noted activation reasons status hintent
  | intended k hk => exact .intended k hk
  | recovered reasons status hexecution hlive hcancel hk =>
    exact .recovered reasons status hexecution hlive hcancel hk
  | adrift reasons status hexecution hlive => exact .adrift reasons status hexecution hlive
  | lapsed state reasons status hstate hexecution hlive hunheld =>
    exact .lapsed state reasons status hstate hexecution hlive fun k hk =>
      hgoes.later.unheld k (hunheld k (howns k hk))
  | answered decision revalidation hqueued hcancel hanswered =>
    exact .answered decision revalidation hqueued hcancel (hanswered.later hgoes.later)
  | blocked revalidation reasons hqueued hcancel hnone =>
    exact .blocked revalidation reasons hqueued hcancel (hsame.trans hnone)
  | cancelRequested hkind hstate => exact .cancelRequested hkind hstate
  | cancelled receipt cancellation hcancel hexecution hreceipt hunheld =>
    exact .cancelled receipt cancellation hcancel hexecution
      (fun decision hd => (hreceipt decision hd).later hgoes.later)
      fun k hk => hgoes.later.unheld k (hunheld k (howns k hk))
  | cancelRefused decision reasons hkind hstate hcancel hexecution hanswered =>
    exact .cancelRefused decision reasons hkind hstate hcancel hexecution (hanswered.later hgoes.later)
  | workspace workspace => exact .workspace workspace
  | executing intent hkind hstate hexecution hcancel hkey hk =>
    exact .executing intent hkind hstate hexecution hcancel hkey hk
  | edited e e' state reasons he hadvance hstate => exact .edited e e' state reasons he hadvance hstate

end

abbrev Turns (lib : Library) (kind : Kind) (candidates : Candidates.Store) (store : Clocked) :
    Operation → Operation → Prop :=
  Relation.ReflTransGen (Turn lib kind candidates store)

section
variable (h : Turns lib kind candidates store op op')
include h

theorem Turns.same : SameTask op op' := by
  induction h with
  | refl => exact ⟨rfl, rfl, rfl, rfl⟩
  | tail _ hturn ih =>
    have hnext := hturn.same
    exact ⟨hnext.id.trans ih.id, hnext.run_id.trans ih.run_id, hnext.task_id.trans ih.task_id,
      hnext.request.trans ih.request⟩

theorem Turns.holds (hop : Holds store op) : Holds store op' := by
  induction h with
  | refl => exact hop
  | tail _ hturn ih => exact hturn.holds ih

theorem Turns.goes (hgoes : Goes [] store store') : Turns lib kind candidates store' op op' := by
  induction h with
  | refl => exact .refl
  | tail _ hturn ih => exact ih.tail (hturn.goes hgoes)

end

end Karajan.Tasks
