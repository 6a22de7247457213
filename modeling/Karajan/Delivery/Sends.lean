import Karajan.Delivery.Moves
import Karajan.Lib.Fleet

/-!
# Effects on the remote

Any number of advances may work on one delivery. Only the one that wrote an
operation down sends it; what the others rely on is the document as it was when
they read it, which the transactions compare with what it is now.
-/

namespace Karajan.Delivery

open List Check
variable {stage : Stage}

-- The history

namespace Event

def appended? : Event → Option (String × Step)
  | .appended delivery_id operation .. => some (delivery_id, operation.step)
  | _ => none

def sent? : Event → Option (String × Step)
  | .sent delivery_id operation => some (delivery_id, operation.step)
  | _ => none

end Event

/-- The operation is in the tables, with what its activation found. -/
def WrittenDown (log : List Event) (delivery_id : String) (operation : Operation) : Prop :=
  ∃ snapshot control run, Event.appended delivery_id operation snapshot control run ∈ log

open Event (appended? sent?)

def Effects (before : List Event) : Event → Prop
  | .appended delivery_id operation snapshot control run =>
      (delivery_id, operation.step) ∉ before.filterMap appended? ∧ control = some .active ∧
      ∃ found, snapshot = some found ∧
        (∀ row ∈ run, row.revision ≤ found.request.delivery_revision ∧
          (row.revision < found.request.delivery_revision → row.snapshot.unresolved = false)) ∧
        (operation.step = .pr → found.pushConfirmed = true)
  | .sent delivery_id operation =>
      (delivery_id, operation.step) ∉ before.filterMap sent? ∧
      WrittenDown before delivery_id operation

-- The invariant

def ticket : Advance × Stage → Option (String × Step)
  | (⟨_, _, some snapshot⟩, .pushing operation) => some (snapshot.id, operation.step)
  | (⟨_, _, some snapshot⟩, .publishing operation _) => some (snapshot.id, operation.step)
  | _ => none

def Stage.Holds (db : Db) (log : List Event) (c : Coordinator) (snapshot : Snapshot) : Stage → Prop
  | .reading => True
  | .verifying => c.local_remote = true → snapshot.unresolved = false
  | .checking _ => snapshot.unresolved = false
  | .validating _ | .appendingPush _ => snapshot.unresolved = false ∧ snapshot.pushConfirmed = false
  | .inspecting _ | .lookingUp .. | .binding .. =>
    snapshot.unresolved = false ∧ snapshot.pushConfirmed = true
  | .appendingPr .. =>
    snapshot.unresolved = false ∧ snapshot.pushConfirmed = true ∧ snapshot.pr = none
  | .pushing operation => operation.step = .push ∧ HeadIs db snapshot.id operation.id ∧
    WrittenDown log snapshot.id operation
  | .publishing operation _ => operation.step = .pr ∧ WrittenDown log snapshot.id operation
  | .recordingPush operation _ | .reconcilingPush operation | .recordingReconcile operation _ =>
    HeadIs db snapshot.id operation.id
  | _ => True

structure Advance.Holds (db : Db) (log : List Event) (a : Advance) (stage : Stage) : Prop where
  unread : a.snapshot = none → stage = .reading ∨ stage = .ended
  read : ∀ snapshot, a.snapshot = some snapshot → Sequenced snapshot ∧
    (∃ current, db.snapshot? snapshot.id = some current ∧ snapshot.Before current) ∧
    stage.Holds db log a.coordinator snapshot

structure SendInv (s : State) (log : List Event) : Prop where
  sound : Sound s.db
  justified : Justified Effects log
  appended : ∀ k ∈ log.filterMap appended?, ∃ row, s.db.deliveries.get? k.1 = some row ∧
    ∃ o ∈ row.snapshot.operations, o.step = k.2
  tickets : Tickets ticket s.advances
  unsent : ∀ p ∈ s.advances, ∀ k, ticket p = some k → k ∉ log.filterMap sent?
  advances : ∀ p ∈ s.advances, p.1.Holds s.db log p.2

-- Steps of the tables

theorem HeadIs.moves {id : String} (h : HeadIs db delivery_id id) (hm : Moves db db') : HeadIs db' delivery_id id := by
  obtain ⟨c, o, hc, hfirst, rfl⟩ := h
  obtain ⟨row, hrow, rfl⟩ := snapshot?_eq_some.mp hc
  obtain ⟨row', hrow', hlater⟩ := hm.rows _ row hrow
  obtain ⟨o', hfirst', hkept⟩ := hlater.snapshot.operations.head hfirst
  exact ⟨row'.snapshot, o', snapshot?_eq_some.mpr ⟨row', hrow', rfl⟩, hfirst', hkept.id⟩

theorem Stage.Holds.moves (h : stage.Holds db log c s) (hm : Moves db db') : stage.Holds db' log c s := by
  cases stage with
  | pushing operation => exact ⟨h.1, h.2.1.moves hm, h.2.2⟩
  | recordingPush operation observation | reconcilingPush operation
  | recordingReconcile operation seen => exact HeadIs.moves h hm
  | _ => exact h

variable {a : Advance}

theorem Advance.Holds.moves (h : a.Holds db log stage) (hm : Moves db db') : a.Holds db' log stage where
  unread := h.unread
  read snapshot hs := by
    obtain ⟨hseq, ⟨current, hc, hbefore⟩, hstage⟩ := h.read snapshot hs
    obtain ⟨row, hrow, rfl⟩ := snapshot?_eq_some.mp hc
    obtain ⟨row', hrow', hlater⟩ := hm.rows _ row hrow
    exact ⟨hseq, ⟨row'.snapshot, snapshot?_eq_some.mpr ⟨row', hrow', rfl⟩,
      hbefore.trans hlater.snapshot⟩, hstage.moves hm⟩

theorem appended_moves {k : String × Step}
    (h : ∃ row, db.deliveries.get? k.1 = some row ∧ ∃ o ∈ row.snapshot.operations, o.step = k.2)
    (hm : Moves db db') :
    ∃ row, db'.deliveries.get? k.1 = some row ∧ ∃ o ∈ row.snapshot.operations, o.step = k.2 := by
  obtain ⟨row, hrow, o, ho, hstep⟩ := h
  obtain ⟨row', hrow', hlater⟩ := hm.rows _ row hrow
  obtain ⟨o', ho', hkept⟩ := hlater.snapshot.operations.mem ho
  exact ⟨row', hrow', o', ho', hkept.step.trans hstep⟩

variable {st : State}

theorem commit_keeps {R : Db → Db → Prop} (hrefl : R db db) (h : ∀ db', result = .ok db' → R db db') :
    R db (commit db result) := by
  cases result with
  | ok db' => exact h db' rfl
  | error fault => exact hrefl

theorem filterMap_snoc {f : Event → Option κ} {k : κ} :
    k ∈ (log ++ [e]).filterMap f ↔ k ∈ log.filterMap f ∨ f e = some k := by
  cases h : f e <;> simp [h, eq_comm]

theorem WrittenDown.snoc (h : WrittenDown log delivery_id operation) :
    WrittenDown (log ++ [e]) delivery_id operation := by
  obtain ⟨snapshot, control, run, he⟩ := h
  exact ⟨snapshot, control, run, mem_append_left _ he⟩

theorem Stage.Holds.snoc (h : stage.Holds db log c s) : stage.Holds db (log ++ [e]) c s := by
  cases stage with
  | pushing operation => exact ⟨h.1, h.2.1, h.2.2.snoc⟩
  | publishing operation existing_id => exact ⟨h.1, h.2.snoc⟩
  | _ => exact h

theorem Advance.Holds.snoc (h : a.Holds db log stage) : a.Holds db (log ++ [e]) stage where
  unread := h.unread
  read snapshot hs := by
    obtain ⟨hseq, hcurrent, hstage⟩ := h.read snapshot hs
    exact ⟨hseq, hcurrent, hstage.snoc⟩

theorem WrittenDown.key (h : WrittenDown log delivery_id operation) :
    (delivery_id, operation.step) ∈ log.filterMap appended? := by
  obtain ⟨snapshot, control, run, he⟩ := h
  exact List.mem_filterMap.mpr ⟨_, he, rfl⟩

theorem sent_appended (h : Justified Effects log) (hk : k ∈ log.filterMap sent?) :
    k ∈ log.filterMap appended? := by
  refine h.earlier hk fun before e hj hkey => ?_
  cases e with
  | appended => simp [sent?] at hkey
  | sent delivery_id operation =>
    cases hkey
    exact hj.2.key

theorem Appends.stored (h : Appends db db' s operation state) :
    db'.snapshot? s.id = some (s.append operation state) := by
  obtain ⟨own, hown, -⟩ := snapshot?_eq_some.mp h.found
  refine snapshot?_eq_some.mpr ⟨{ own with snapshot := s.append operation state }, ?_, rfl⟩
  rw [h.deliveries, get?_save]
  show (if s.id = s.id then _ else _) = _
  rw [if_pos rfl, hown]
  rfl

section
variable (h : SendInv st log)
include h

theorem SendInv.moves (hm : Moves st.db db') : SendInv { st with db := db' } log :=
  { h with
    sound := hm.sound h.sound
    appended := fun k hk => appended_moves (h.appended k hk) hm
    advances := fun p hp => (h.advances p hp).moves hm }

-- An advance that goes on

theorem SendInv.goesOn {a' : Advance} (hm : Moves st.db db') (hticket : ticket (a', stage') = none)
    (hnew : a'.Holds db' log stage') : SendInv ⟨db', st.advances.set index (a', stage')⟩ log where
  sound := hm.sound h.sound
  justified := h.justified
  appended k hk := appended_moves (h.appended k hk) hm
  tickets := h.tickets.set fun k hk => by simp [hticket] at hk
  unsent p hp k hk := by
    rcases mem_set_cases hp with rfl | hp
    · simp [hticket] at hk
    · exact h.unsent p hp k hk
  advances p hp := by
    rcases mem_set_cases hp with rfl | hp
    · exact hnew
    · exact (h.advances p hp).moves hm

theorem SendInv.sends (hget : st.advances[index]? = some (a, stage))
    (hticket : ticket (a, stage) = some (delivery_id, operation.step))
    (hwritten : WrittenDown log delivery_id operation) (hdone : ticket (a, stage') = none)
    (hnew : a.Holds st.db log stage') :
    SendInv ⟨st.db, st.advances.set index (a, stage')⟩ (log ++ [.sent delivery_id operation]) where
  sound := h.sound
  justified := h.justified.snoc
    ⟨h.unsent (a, stage) (mem_of_getElem? hget) _ hticket, hwritten⟩
  appended k hk := by
    refine h.appended k ((filterMap_snoc.mp hk).resolve_right ?_)
    simp [appended?]
  tickets := h.tickets.set fun k hk => by simp [hdone] at hk
  unsent p hp k hk hsent := by
    rcases h.tickets.others hget hticket hp with rfl | hne
    · simp [hdone] at hk
    · rcases filterMap_snoc.mp hsent with hsent | hsent
      · rcases mem_set_cases hp with rfl | hp
        · simp [hdone] at hk
        · exact h.unsent p hp k hk hsent
      · cases hsent
        exact hne hk
  advances p hp := by
    rcases mem_set_cases hp with rfl | hp
    · exact hnew.snoc
    · exact (h.advances p hp).snoc

theorem SendInv.holder (hp : p ∈ st.advances) (hk : ticket p = some k) : k ∈ log.filterMap appended? := by
  obtain ⟨⟨c, delivery_id, snapshot⟩, stage⟩ := p
  have hadvance := h.advances _ hp
  cases snapshot with
  | none => simp [ticket] at hk
  | some snapshot =>
    obtain ⟨-, -, hstage⟩ := hadvance.read snapshot rfl
    cases stage with
    | pushing operation => cases hk; exact hstage.2.2.key
    | publishing operation existing_id => cases hk; exact hstage.2.key
    | _ => simp [ticket] at hk

theorem SendInv.appends (hread : a.snapshot = some s) (ha : Appends st.db db' s operation state)
    (hseq : Sequenced (s.append operation state)) (hnone : ∀ o ∈ s.operations, o.step ≠ operation.step)
    (hpushed : operation.step = .pr → s.pushConfirmed = true)
    (hticket : ticket (a, stage') = some (s.id, operation.step))
    (hstage : ∀ log, WrittenDown log s.id operation → stage'.Holds db' log a.coordinator s) :
    SendInv ⟨db', st.advances.set index (a, stage')⟩ (log ++ [.appended s.id operation (st.db.snapshot? s.id)
        (st.db.run_controls.get? s.request.run_id) (st.db.ofRun s.request.run_id)]) := by
  have hm : Moves st.db db' := ha.moves h.sound hseq
  obtain ⟨own, hown, hsame⟩ := snapshot?_eq_some.mp ha.found
  have hunwritten : (s.id, operation.step) ∉ log.filterMap appended? := by
    intro hk
    obtain ⟨row, hrow, o, ho, hstep⟩ := h.appended _ hk
    rw [hown] at hrow
    cases hrow
    rw [hsame] at ho
    exact hnone o ho hstep
  have hunsent : (s.id, operation.step) ∉ log.filterMap sent? :=
    fun hk => hunwritten (sent_appended h.justified hk)
  have hj : Effects log (.appended s.id operation (st.db.snapshot? s.id)
      (st.db.run_controls.get? s.request.run_id) (st.db.ofRun s.request.run_id)) :=
    ⟨hunwritten, ha.current.control, s, ha.found,
      fun row hrow => ⟨ha.current.highest row hrow, ha.current.resolved row hrow⟩, hpushed⟩
  have hwritten : WrittenDown (log ++ [.appended s.id operation (st.db.snapshot? s.id)
      (st.db.run_controls.get? s.request.run_id) (st.db.ofRun s.request.run_id)]) s.id operation :=
    ⟨_, _, _, mem_append_right _ (List.mem_singleton.mpr rfl)⟩
  have hstored : db'.snapshot? s.id = some (s.append operation state) := ha.stored
  refine ⟨hm.sound h.sound, h.justified.snoc hj, ?_, ?_, ?_, ?_⟩
  · intro k hk
    rcases filterMap_snoc.mp hk with hk | hk
    · exact appended_moves (h.appended k hk) hm
    · simp only [appended?, Option.some.injEq] at hk
      subst hk
      obtain ⟨row, hrow, hsnapshot⟩ := snapshot?_eq_some.mp hstored
      refine ⟨row, hrow, operation, ?_, rfl⟩
      rw [hsnapshot]
      exact mem_append_right _ (List.mem_singleton.mpr rfl)
  · refine h.tickets.set fun k hk q hq heq => ?_
    rw [hticket] at hk
    cases hk
    exact hunwritten (h.holder hq heq)
  · intro p hp k hk hsent
    rcases filterMap_snoc.mp hsent with hsent | hsent
    · rcases mem_set_cases hp with rfl | hp
      · rw [hticket] at hk
        cases hk
        exact hunsent hsent
      · exact h.unsent p hp k hk hsent
    · simp [sent?] at hsent
  · intro p hp
    rcases mem_set_cases hp with rfl | hp
    · refine ⟨fun hnone => by simp [hread] at hnone, fun snapshot hsnapshot => ?_⟩
      rw [hread] at hsnapshot
      cases hsnapshot
      exact ⟨hsame ▸ h.sound.sequenced _ own hown, ⟨_, hstored, append_before⟩, hstage _ hwritten⟩
    · exact ((h.advances p hp).moves hm).snoc

end

-- Stages

theorem confirmFirst_quiet (h : confirmFirst s operation pr = stage) :
    ticket (⟨c, delivery_id, some s⟩, stage) = none ∧ stage.Holds db log c s := by
  unfold confirmFirst at h
  split at h
  · cases h; exact ⟨rfl, trivial⟩
  · split at h
    · cases h; exact ⟨rfl, trivial⟩
    · cases h; exact ⟨rfl, trivial⟩

open Operation (pending)

theorem Sequenced.pending_push (h : Sequenced s)
    (hfind : s.operations.find? pending = some operation) (hpush : operation.step = .push) :
    s.operations.head? = some operation := by
  rcases h with hnil | ⟨push, hops, -⟩ | ⟨push, pr, hops, -, hstate, hprstep, -⟩
  · simp [hnil] at hfind
  · rw [hops] at hfind ⊢
    cases List.mem_singleton.mp (mem_of_find?_eq_some hfind)
    rfl
  · have hnot : push.pending = false := by simp [pending, hstate]
    rw [hops, find?_cons_of_neg (by simp [hnot])] at hfind
    cases List.mem_singleton.mp (mem_of_find?_eq_some hfind)
    simp [hprstep] at hpush

open Snapshot (unresolved pushConfirmed append)

theorem readStage_quiet (c : Coordinator) (delivery_id : String) (log : List Event) (hseq : Sequenced s) (hfound : db.snapshot? s.id = some s) :
    ticket (⟨c, delivery_id, some s⟩, readStage c s) = none ∧ (readStage c s).Holds db log c s := by
  unfold readStage
  split
  case h_1 operation hfind =>
    split
    · split
      · split <;> exact ⟨rfl, trivial⟩
      case h_2 hpush => exact ⟨rfl, s, operation, hfound, hseq.pending_push hfind hpush, rfl⟩
    case isFalse hremote => exact ⟨rfl, fun h => absurd h hremote⟩
  case h_2 hnone =>
    refine ⟨rfl, fun _ => ?_⟩
    simpa [unresolved] using hnone

theorem verification_ok (h : verification c s receipt? = .ok receipt) : c.local_remote = true := by
  simp only [verification, bind_ok, ensure_ok, Bool.and_eq_true] at h
  obtain ⟨-, h, -⟩ := h
  exact h.1.1.2

theorem talk_quiet (w : World) (delivery_id : String) (h : stage.Holds db log c s) :
    ticket (⟨c, delivery_id, some s⟩, talk w c s stage) = none ∧ (talk w c s stage).Holds db log c s := by
  cases stage with
  | verifying =>
    simp only [talk]
    split
    case h_1 hok => exact ⟨rfl, h (verification_ok hok)⟩
    case h_2 => exact ⟨rfl, trivial⟩
  | validating receipt | inspecting receipt | reconcilingPush operation =>
    simp only [talk]
    split
    case h_1 => exact ⟨rfl, h⟩
    all_goals exact ⟨rfl, trivial⟩
  | pushing operation =>
    simp only [talk]
    split
    case h_1 => exact ⟨rfl, h.2.1⟩
    case h_2 => exact ⟨rfl, h.2.1⟩
    all_goals exact ⟨rfl, trivial⟩
  | lookingUp receipt seen =>
    simp only [talk]
    split
    case h_1 =>
      split
      case h_2 => exact ⟨rfl, h⟩
      all_goals exact ⟨rfl, trivial⟩
    all_goals exact ⟨rfl, trivial⟩
  | publishing operation existing_id =>
    simp only [talk]
    split
    case h_1 => exact confirmFirst_quiet rfl
    all_goals exact ⟨rfl, trivial⟩
  | confirmVerifying operation pr => exact ⟨rfl, trivial⟩
  | confirmInspecting operation pr verification_reason | reconcileInspecting operation =>
    simp only [talk]
    split <;> exact ⟨rfl, trivial⟩
  | reconcileLookingUp operation seen =>
    simp only [talk]
    split
    case h_1 =>
      split
      case h_2 => exact confirmFirst_quiet rfl
      all_goals exact ⟨rfl, trivial⟩
    all_goals exact ⟨rfl, trivial⟩
  | _ => exact ⟨rfl, h⟩

theorem bindingStage_quiet (hresolved : s.unresolved = false) (hpushed : s.pushConfirmed = true) :
    ticket (⟨c, delivery_id, some s⟩, bindingStage s receipt found bound_id) = none ∧
      (bindingStage s receipt found bound_id).Holds db log c s := by
  unfold bindingStage
  split
  · exact ⟨rfl, trivial⟩
  · split
    · split
      · split
        · exact confirmFirst_quiet rfl
        · exact ⟨rfl, trivial⟩
      · split <;> exact ⟨rfl, trivial⟩
      · exact ⟨rfl, trivial⟩
    case h_2 hnone => exact ⟨rfl, hresolved, hpushed, hnone⟩

theorem Sequenced.unpushed (h : Sequenced s) (hresolved : s.unresolved = false)
    (hpushed : s.pushConfirmed = false) : s.operations = [] := by
  rcases h with hnil | ⟨push, hops, hstep⟩ | ⟨push, pr, hops, hstep, hstate, -⟩
  · exact hnil
  · cases hstate : push.state with
    | sendUnknown => simp [unresolved, hops, pending, hstate] at hresolved
    | confirmed => simp [pushConfirmed, hops, hstep, hstate] at hpushed
  · simp [pushConfirmed, hops, hstep, hstate] at hpushed

theorem Sequenced.unpublished (h : Sequenced s) (hresolved : s.unresolved = false)
    (hpushed : s.pushConfirmed = true) (hpr : s.pr = none) :
    ∃ push, s.operations = [push] ∧ push.step = .push ∧ push.state = .confirmed := by
  rcases h with hnil | ⟨push, hops, hstep⟩ | ⟨push, pr, hops, -, -, -, hsome⟩
  · simp [pushConfirmed, hnil] at hpushed
  · refine ⟨push, hops, hstep, ?_⟩
    simpa [pushConfirmed, hops, hstep] using hpushed
  · have hprstate : pr.state = .sendUnknown := by
      cases hstate : pr.state with
      | sendUnknown => rfl
      | confirmed => simp [hpr] at hsome; exact absurd hstate hsome
    simp [unresolved, hops, pending, hprstate] at hresolved

-- Steps

/-- What a step of the system keeps, and how the tables went on. -/
def Stepped (st st' : State) (log : List Event) : Prop := SendInv st' log ∧ Moves st.db st'.db

section
variable (h : SendInv st log) (hmem : (a, stage) ∈ st.advances) (hread : a.snapshot = some s)
  (hm : Moves st.db db')
include h hmem hread hm

theorem Stepped.quiet (hnew : ticket (⟨a.coordinator, a.delivery_id, some s⟩, stage') = none ∧
      stage'.Holds db' log a.coordinator s) : Stepped st ⟨db', st.advances.set index (a, stage')⟩ log := by
  obtain ⟨c, delivery_id, snapshot⟩ := a
  cases hread
  obtain ⟨hseq, ⟨current, hc, hbefore⟩, -⟩ := (h.advances _ hmem).moves hm |>.read s rfl
  exact ⟨h.goesOn hm hnew.1 ⟨fun hnone => by simp at hnone,
    fun snapshot hsnapshot => by cases hsnapshot; exact ⟨hseq, ⟨current, hc, hbefore⟩, hnew.2⟩⟩, hm⟩

theorem Stepped.ends :
    Stepped st ⟨db', st.advances.set index (a, .ended)⟩ log := .quiet h hmem hread hm ⟨rfl, trivial⟩

end

theorem advance_read (hread : a.snapshot = some s) (hstage : stage ≠ .reading) : advance w db a stage =
      ((advanceStage w a.coordinator s db stage).1, a, (advanceStage w a.coordinator s db stage).2) := by
  cases stage <;> simp_all [Delivery.advance]

theorem State.advance_eq
    (hget : st.advances[index]? = some (a, stage)) (hread : a.snapshot = some s) (hstage : stage ≠ .reading) :
    st.advance index w = ⟨(advanceStage w a.coordinator s st.db stage).1,
      st.advances.set index (a, (advanceStage w a.coordinator s st.db stage).2)⟩ := by
  simp [State.advance, hget, advance_read hread hstage]

theorem emit_eq (hget : st.advances[index]? = some (a, stage)) (hread : a.snapshot = some s) :
    emit st (.advance index w) = emitStage w s st.db stage := by
  simp [emit, hget, hread]

theorem outcomeStage_keeps {R : Db → Db → Prop} {next : Stage} (hrefl : R db db)
    (h : ∀ db' outcome, result = .ok (db', outcome) → R db db') : R db (outcomeStage result db next).1 := by
  cases result with
  | ok r =>
    obtain ⟨db', outcome⟩ := r
    cases outcome with
    | stops => exact h db' .stops rfl
    | goesOn => exact h db' .goesOn rfl
  | error fault => exact hrefl

theorem outcomeStage_cases (result : Except Fault (Db × Outcome)) (db : Db) (next : Stage) :
    (outcomeStage result db next).2 = next ∨ (outcomeStage result db next).2 = .ended := by
  cases result with
  | ok r =>
    obtain ⟨db', outcome⟩ := r
    cases outcome with
    | stops => exact .inr rfl
    | goesOn => exact .inl rfl
  | error fault => exact .inr rfl

theorem ended_ticket (a : Advance) : ticket (a, .ended) = none := by
  obtain ⟨c, delivery_id, snapshot⟩ := a
  cases snapshot <;> rfl

theorem Advance.Holds.ended (h : a.Holds db log stage) : a.Holds db log .ended where
  unread _ := .inr rfl
  read s hs := by
    obtain ⟨hseq, hcurrent, -⟩ := h.read s hs
    exact ⟨hseq, hcurrent, trivial⟩

section
variable (h : SendInv st log)
include h

theorem append_step {next : Stage} (hmem : (a, stage) ∈ st.advances) (hread : a.snapshot = some s)
    (hresult : ∀ db' outcome, result = .ok (db', outcome) → outcome = .stops ∧ Moves st.db db' ∨
      outcome = .goesOn ∧ Appends st.db db' s operation state) (hseq : Sequenced (s.append operation state))
    (hnone : ∀ o ∈ s.operations, o.step ≠ operation.step)
    (hpushed : operation.step = .pr → s.pushConfirmed = true)
    (hticket : ticket (a, next) = some (s.id, operation.step))
    (hnext : ∀ db', Appends st.db db' s operation state → ∀ log, WrittenDown log s.id operation →
      next.Holds db' log a.coordinator s) : Stepped st ⟨(outcomeStage result st.db next).1,
      st.advances.set index (a, (outcomeStage result st.db next).2)⟩
      (log ++ (appends st.db s operation result).toList) := by
  cases result with
  | ok r =>
    obtain ⟨db', outcome⟩ := r
    rcases hresult db' outcome rfl with ⟨rfl, hm⟩ | ⟨rfl, ha⟩
    · simpa [appends, outcomeStage] using Stepped.ends h hmem hread hm
    · exact ⟨h.appends hread ha hseq hnone hpushed hticket (hnext db' ha), ha.moves h.sound hseq⟩
  | error fault =>
    simpa [appends, outcomeStage] using Stepped.ends h hmem hread (.refl st.db)

theorem stage_step
    (hget : st.advances[index]? = some (a, stage)) (hread : a.snapshot = some s) (hstage : stage ≠ .reading) :
    Stepped st (st.advance index w) (log ++ (emit st (.advance index w)).toList) := by
  rw [State.advance_eq hget hread hstage, emit_eq hget hread]
  obtain ⟨c, delivery_id, snapshot⟩ := a
  cases hread
  have hmem : (⟨c, delivery_id, some s⟩, stage) ∈ st.advances := mem_of_getElem? hget
  obtain ⟨hseq, hcurrent, hholds⟩ := (h.advances _ hmem).read s rfl
  have quiet : ∀ {db' : Db} {stage' : Stage}, Moves st.db db' →
      (ticket (⟨c, delivery_id, some s⟩, stage') = none ∧ stage'.Holds db' log c s) →
      Stepped st ⟨db', st.advances.set index (⟨c, delivery_id, some s⟩, stage')⟩
        (log ++ Option.toList none) := by
    intro db' stage' hm hnew
    simpa using Stepped.quiet h hmem rfl hm hnew
  have ended : ∀ {result : Except Fault Db}, (∀ db', result = .ok db' → Moves st.db db') →
      Stepped st ⟨commit st.db result, st.advances.set index (⟨c, delivery_id, some s⟩, .ended)⟩
        (log ++ Option.toList none) :=
    fun hm => quiet (commit_keeps (.refl _) hm) ⟨rfl, trivial⟩
  have sends : ∀ {operation : Operation},
      ticket (⟨c, delivery_id, some s⟩, stage) = some (s.id, operation.step) →
      WrittenDown log s.id operation → Stepped st
        ⟨st.db, st.advances.set index (⟨c, delivery_id, some s⟩, talk w c s stage)⟩
        (log ++ [.sent s.id operation]) := by
    intro operation hticket hwritten
    obtain ⟨hdone, hnew⟩ := talk_quiet w delivery_id hholds
    refine ⟨h.sends hget hticket hwritten hdone ⟨fun hnone => by simp at hnone, ?_⟩, .refl st.db⟩
    intro snapshot hsnapshot
    cases hsnapshot
    exact ⟨hseq, hcurrent, hnew⟩
  cases stage with
  | reading => exact absurd rfl hstage
  | checking receipt =>
    refine quiet (outcomeStage_keeps (.refl _) fun db' outcome hok => checkActivation_moves h.sound hok) ?_
    rcases outcomeStage_cases (checkActivation s st.db) st.db
      (if s.pushConfirmed then .inspecting receipt else .validating receipt) with hnext | hnext
    · simp only [advanceStage, hnext]
      split
      case isTrue hpushed => exact ⟨rfl, hholds, hpushed⟩
      case isFalse hpushed => exact ⟨rfl, hholds, by simpa using hpushed⟩
    · simp only [advanceStage, hnext]
      exact ⟨rfl, trivial⟩
  | appendingPush receipt =>
    have hempty := hseq.unpushed hholds.1 hholds.2
    refine append_step h hmem rfl (fun db' outcome hok => appendPush_ok h.sound hok) ?_ ?_ ?_ rfl ?_
    · exact .inr (.inl ⟨newOperation w s .push receipt none, by simp [append, hempty], rfl⟩)
    · simp [hempty]
    · simp [newOperation]
    · intro db' ha log hwritten
      refine ⟨rfl, ⟨_, newOperation w s .push receipt none, ha.stored, ?_, rfl⟩, hwritten⟩
      simp [append, hempty]
  | recordingPush operation observation => exact ended fun db' hok => recordPush_moves h.sound hholds hok
  | binding receipt found => exact quiet (.refl st.db) (bindingStage_quiet hholds.1 hholds.2)
  | appendingPr receipt existing_id =>
    obtain ⟨push, hops, hstep, hstate⟩ := hseq.unpublished hholds.1 hholds.2.1 hholds.2.2
    refine append_step h hmem rfl (fun db' outcome hok => appendPr_ok h.sound hok) ?_ ?_ ?_ rfl ?_
    · refine .inr (.inr ⟨push, newOperation w s .pr receipt existing_id, ?_, hstep, hstate, rfl, ?_⟩)
      · simp [append, hops]
      · simp [newOperation]
    · simp [hops, hstep, newOperation]
    · exact fun _ => hholds.2.1
    · exact fun db' ha log hwritten => ⟨rfl, hwritten⟩
  | confirming operation pr verification_reason observation remote_reason =>
    exact ended fun db' hok => confirmPr_moves h.sound hok
  | unknown => exact ended fun db' hok => unknown_moves h.sound hok
  | recordingReconcile operation seen =>
    exact ended fun db' hok => reconcilePush_moves h.sound hholds hok
  | blocking reason => exact quiet block_moves ⟨rfl, trivial⟩
  | pushing operation => exact sends rfl hholds.2.2
  | publishing operation existing_id => exact sends rfl hholds.2
  | _ => exact quiet (.refl st.db) (talk_quiet w delivery_id hholds)

theorem read_step (hget : st.advances[index]? = some (a, .reading)) : Stepped st (st.advance index w) log := by
  have hadvance := h.advances _ (mem_of_getElem? hget)
  simp only [State.advance, hget, Delivery.advance]
  split
  case h_1 snapshot hfound =>
    have hid := keyed_of_sound h.sound hfound
    have hself : st.db.snapshot? snapshot.id = some snapshot := by rw [hid, hfound]
    have hseq := sequenced_of_sound h.sound hfound
    obtain ⟨hticket, hholds⟩ := readStage_quiet a.coordinator a.delivery_id log hseq hself
    refine ⟨h.goesOn (.refl st.db) hticket ⟨fun hnone => by simp at hnone, ?_⟩, .refl st.db⟩
    intro s hs
    cases hs
    exact ⟨hseq, ⟨snapshot, hself, .refl snapshot⟩, hholds⟩
  · exact ⟨h.goesOn (.refl st.db) (ended_ticket a) hadvance.ended, .refl st.db⟩

theorem advance_step (index : Nat) (w : World) :
    Stepped st (st.advance index w) (log ++ (emit st (.advance index w)).toList) := by
  cases hget : st.advances[index]? with
  | none => simpa [State.advance, emit, hget] using ⟨h, .refl st.db⟩
  | some p =>
    obtain ⟨a, stage⟩ := p
    have hadvance := h.advances _ (mem_of_getElem? hget)
    by_cases hreading : stage = .reading
    · subst hreading
      have hquiet : emit st (.advance index w) = none := by
        cases hread : a.snapshot <;> simp [emit, hget, hread, emitStage]
      simpa [hquiet] using read_step h hget
    · cases hread : a.snapshot with
      | some s => exact stage_step h hget hread hreading
      | none =>
        cases (hadvance.unread hread).resolve_left hreading
        have hset : st.advances.set index (a, .ended) = st.advances := by
          obtain ⟨hlt, hat⟩ := List.getElem?_eq_some_iff.mp hget
          rw [← hat, List.set_getElem_self]
        have hsame : st.advance index w = st := by
          simp [State.advance, hget, Delivery.advance, hread, hset]
        simpa [emit, hget, hread, hsame] using ⟨h, .refl st.db⟩

theorem called (ha : a.snapshot = none) : SendInv { st with advances := st.advances ++ [(a, .reading)] } log := by
  obtain ⟨c, delivery_id, snapshot⟩ := a
  cases ha
  refine ⟨h.sound, h.justified, h.appended, h.tickets.snoc rfl, fun p hp k hk => ?_, fun p hp => ?_⟩
  · rcases List.mem_append.mp hp with hp | hp
    · exact h.unsent p hp k hk
    · cases List.mem_singleton.mp hp
      simp [ticket] at hk
  · rcases List.mem_append.mp hp with hp | hp
    · exact h.advances p hp
    · cases List.mem_singleton.mp hp
      exact ⟨fun _ => .inl rfl, fun s hs => by simp at hs⟩

theorem crashed (index : Nat) :
    SendInv { st with advances := st.advances.modify index fun p => (p.1, .ended) } log := by
  cases hget : st.advances[index]? with
  | none => rwa [modify_absent hget]
  | some p =>
    rw [modify_ended hget]
    exact h.goesOn (.refl st.db) (ended_ticket p.1) (h.advances p (mem_of_getElem? hget)).ended

theorem step_inv (action : Action) : Stepped st (st.step L action) (log ++ (emit st action).toList) := by
  cases action with
  | reopen =>
    have hm : Moves st.db (commit st.db (openTables st.db)) :=
      commit_keeps (.refl _) fun db' hok => .of_eq (openTables_deliveries hok)
    simpa [emit, State.step] using ⟨h.moves hm, hm⟩
  | plan mode id request command_key principal =>
    have hm : Moves st.db (commit st.db (Prod.fst <$> plan L mode id request command_key principal st.db)) := by
      refine commit_keeps (.refl _) fun db' hok => ?_
      obtain ⟨⟨db'', result⟩, hplan, rfl⟩ := map_ok.mp hok
      exact plan_moves hplan
    simpa [emit, State.step] using ⟨h.moves hm, hm⟩
  | setControl run_id state command_key principal =>
    have hm : Moves st.db (commit st.db (Prod.fst <$> setControl L run_id state command_key principal st.db)) := by
      refine commit_keeps (.refl _) fun db' hok => ?_
      obtain ⟨⟨db'', result⟩, hset, rfl⟩ := map_ok.mp hok
      exact setControl_moves hset
    simpa [emit, State.step] using ⟨h.moves hm, hm⟩
  | call coordinator delivery_id principal =>
    have hm : Moves st.db st.db := .refl st.db
    simp only [emit, State.step, Option.toList_none, append_nil]
    split
    · exact ⟨called h rfl, hm⟩
    · exact ⟨h, hm⟩
  | advance index w => exact advance_step h index w
  | crash index =>
    simpa [emit, State.step] using ⟨crashed h index, .refl st.db⟩

end

-- Runs

theorem sendInv_empty : SendInv .empty [] where
  sound := ⟨fun id row h => by simp [State.empty, Db.empty] at h,
    fun id row h => by simp [State.empty, Db.empty] at h,
    fun id id' row row' h => by simp [State.empty, Db.empty] at h,
    fun id id' row row' h => by simp [State.empty, Db.empty] at h⟩
  justified := .nil
  appended := by simp
  tickets := .nil
  unsent := by simp [State.empty]
  advances := by simp [State.empty]

theorem path_inv (h : SendInv p.1 p.2) (hp : ((system L).traced emit).Path System.free p p') :
    SendInv p'.1 p'.2 ∧ Dict.Grows DeliveryRow.Later p.1.db.deliveries p'.1.db.deliveries := by
  refine hp.keeps (I := fun q => SendInv q.1 q.2 ∧
    Dict.Grows DeliveryRow.Later p.1.db.deliveries q.1.db.deliveries) ?_ ⟨h, .refl .refl _⟩
  rintro q action ⟨hq, hlater⟩ -
  obtain ⟨hinv, hm⟩ := step_inv hq action
  exact ⟨hinv, hlater.trans (fun _ _ _ => .trans) hm.rows⟩

theorem sendInv_reach (h : ((system L).traced emit).Reach System.free p) : SendInv p.1 p.2 := by
  obtain ⟨i, ⟨hstate, hlog⟩, hp⟩ := h
  have hinitial : SendInv i.1 i.2 := by
    rw [hstate, hlog]
    exact sendInv_empty
  exact (path_inv hinitial hp).1

theorem Sequenced.one_pending (h : Sequenced s) : (s.operations.filter pending).length ≤ 1 := by
  rcases h with hnil | ⟨push, hops, -⟩ | ⟨push, pr, hops, -, hstate, -⟩
  · simp [hnil]
  · simpa [hops] using length_filter_le pending [push]
  · have hnot : push.pending = false := by simp [pending, hstate]
    rw [hops, filter_cons_of_neg (by simp [hnot])]
    exact length_filter_le pending [pr]

theorem Sequenced.one_of_step (h : Sequenced s) (step : Step) :
    (s.operations.filter (·.step = step)).length ≤ 1 := by
  rcases h with hnil | ⟨push, hops, -⟩ | ⟨push, pr, hops, hpush, -, hpr, -⟩
  · simp [hnil]
  · simpa [hops] using length_filter_le _ [push]
  · cases step <;> simp [hops, hpush, hpr]

structure Safe (db : Db) : Prop where
  /-- The operations of a run whose result is not known are of one delivery. -/
  one_delivery : ∀ id id' row row', db.deliveries.get? id = some row →
    db.deliveries.get? id' = some row' → row.run_id = row'.run_id →
    row.snapshot.unresolved = true → row'.snapshot.unresolved = true → id = id'
  one_pending : ∀ id row, db.deliveries.get? id = some row → (row.snapshot.operations.filter pending).length ≤ 1
  one_of_step : ∀ id row step, db.deliveries.get? id = some row →
    (row.snapshot.operations.filter (·.step = step)).length ≤ 1

theorem Sound.safe (h : Sound db) : Safe db where
  one_delivery := h.one_unresolved
  one_pending id row hrow := (h.sequenced id row hrow).one_pending
  one_of_step id row step hrow := (h.sequenced id row hrow).one_of_step step

/-- An effect is written down before it is sent, under an activation that its own transaction
found, and both happen once; what was confirmed stays so. -/
theorem effects_once (h : ((system L).traced emit).Reach System.free (st, log))
    (hp : ((system L).traced emit).Path System.free (st, log) (st', log')) :
    Justified Effects log ∧ (log.filterMap appended?).Nodup ∧
      (log.filterMap sent?).Nodup ∧ Safe st.db ∧
      Dict.Grows DeliveryRow.Later st.db.deliveries st'.db.deliveries := by
  have hs : SendInv st log := sendInv_reach h
  refine ⟨hs.justified, hs.justified.nodup ?_, hs.justified.nodup ?_, hs.sound.safe,
    (path_inv (p := (st, log)) hs hp).2⟩
  · intro before e k hj hk
    cases e with
    | appended => cases hk; exact hj.1
    | sent => simp [appended?] at hk
  · intro before e k hj hk
    cases e with
    | appended => simp [sent?] at hk
    | sent => cases hk; exact hj.1

namespace Sample

/-! One delivery, whose push and whose pull request are sent. -/

def library : Library where
  printable _ := true
  whitespace c := c = ' '
  requestDigest r := r.run_id
  controlDigest run_id _ := run_id

def commit_sha : String := "aaaaaaaaaaaaaaaaaaaaaaaaaaaaaaaaaaaaaaaa"

def content_sha256 : String := "bbbbbbbbbbbbbbbbbbbbbbbbbbbbbbbbbbbbbbbbbbbbbbbbbbbbbbbbbbbbbbbb"

def request : Request where
  run_id := "r1"
  delivery_revision := 1
  repository_id := "repo"
  managed_branch := "karajan/r1"
  base_branch := "main"
  tested_base_sha := commit_sha
  candidate_id := "c1"
  content_sha256 := content_sha256
  tree_sha := commit_sha
  commit_sha := commit_sha
  authorization_sha256 := content_sha256
  evidence_sha256 := content_sha256
  verification_ref := "v1"
  expected_old_sha := none
  require_ci := false

def pr : PullRequest where
  id := "7"
  repository_id := "repo"
  managed_branch := "karajan/r1"
  base_branch := "main"
  run_id := "r1"
  head_sha := commit_sha
  isOpen := true
  merged := false
  ci_sha := none
  ci_status := .unknown

def seen : Remote := ⟨"repo", some commit_sha, some commit_sha⟩

def world (operation_id : String) : World where
  receipt := some ⟨"v1", "r1", "1", .allow, .fixture⟩
  seen := .returns seen
  validated := .returns ()
  listed := .returns (some [])
  pushed := .returns (some seen)
  published := .returns (some pr)
  operation_id := operation_id
  activation_id := "t1"
  now := "now"

def planned : List Action := [
  .plan .offlineFixture "d1" request "k1" "controller",
  .call ⟨.offlineFixture, true, some .offlineFixture, true⟩ "d1" "controller",
  .call ⟨.offlineFixture, true, some .offlineFixture, true⟩ "d1" "controller"]

def delivered : List Action :=
  planned ++ replicate 7 (.advance 0 (world "o1")) ++ replicate 11 (.advance 1 (world "o2"))

def after (actions : List Action) : State × List Event :=
  ((system library).traced emit).run (State.empty, []) actions

theorem after_reach (actions : List Action) : ((system library).traced emit).Reach System.free (after actions) :=
  ⟨(State.empty, []), ⟨rfl, rfl⟩, .of_free_run⟩

end Sample

/-- A delivery is pushed and published. -/
theorem effects_once_sample : ∃ (st : State) (log : List Event),
    log.filterMap sent? = [("d1", .push), ("d1", .pr)] ∧
    Justified Effects log ∧ (log.filterMap appended?).Nodup ∧
      (log.filterMap sent?).Nodup ∧ Safe st.db ∧
      Dict.Grows DeliveryRow.Later st.db.deliveries st.db.deliveries := by
  have hsent : (Sample.after Sample.delivered).2.filterMap sent? = [("d1", .push), ("d1", .pr)] := by
    decide +kernel
  exact ⟨_, _, hsent, effects_once (Sample.after_reach Sample.delivered) .refl⟩

end Karajan.Delivery
