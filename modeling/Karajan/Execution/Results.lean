import Karajan.Execution.Launches

/-!
# Results and usage

A result is decided once, by the row and the control as they are when it first
arrives. A row that is finished may never have run: the supervisor that refuses
the launch finishes it too, without an exit code.
-/

namespace Karajan.Execution

open List Dict Check
variable {s : State} {t t' : Tables} {e : Event}

-- What a step keeps of the rows

def Row.Same (f : Row → α) (row row' : Row) : Prop := row'.attempt_id = row.attempt_id ∧ f row' = f row

/-- Each row keeps what `f` reads of it, and a new row has an attempt of its own. -/
structure Tables.Keeps (f : Row → α) (new : α) (t t' : Tables) : Prop where
  forward : t.executions.Grows (Row.Same f) t'.executions
  back : ∀ key row', t'.executions.get? key = some row' →
    (∃ row, t.executions.get? key = some row ∧ row.Same f row') ∨
    f row' = new ∧ ∀ key row, t.executions.get? key = some row → row.attempt_id ≠ row'.attempt_id

theorem Row.Same.refl {f : Row → α} (row : Row) : row.Same f row := ⟨rfl, rfl⟩

namespace Tables.Keeps

variable {new : α}

theorem of_eq (h : t'.executions = t.executions) : t.Keeps f new t' where
  forward := by
    rw [h]
    exact .refl Row.Same.refl _
  back _ row' hrow' := .inl ⟨row', h ▸ hrow', .refl row'⟩

theorem refl (t : Tables) : t.Keeps f new t := of_eq rfl

theorem update (hg : ∀ row : Row, row.Same f (g row))
    (h : t'.executions = (t.update start_key g).executions) : t.Keeps f new t' where
  forward := by
    rw [h]
    exact .modify Row.Same.refl fun row _ => hg row
  back key row' hrow' := by
    rw [h, Tables.Moves.get?_update] at hrow'
    split at hrow'
    case isTrue hkey =>
      subst hkey
      obtain ⟨row, hrow, rfl⟩ := Option.map_eq_some_iff.mp hrow'
      exact .inl ⟨row, hrow, hg row⟩
    · exact .inl ⟨row', hrow', .refl row'⟩

theorem put (hnone : t.executions.get? start_key = none)
    (hfree : ∀ key row', t.executions.get? key = some row' → row'.attempt_id ≠ row.attempt_id)
    (h : t'.executions = t.executions.put start_key row) (hnew : f row = new) : t.Keeps f new t' where
  forward := by
    rw [h]
    exact .put_new Row.Same.refl hnone
  back key row' hrow' := by
    rw [h, get?_put] at hrow'
    split at hrow'
    · cases hrow'; exact .inr ⟨hnew, hfree⟩
    · exact .inl ⟨row', hrow', .refl row'⟩

theorem comp (h : t.Keeps f new t') (g : α → β) : t.Keeps (g ∘ f) (g new) t' where
  forward := h.forward.mono fun _ _ hv => ⟨hv.1, congrArg g hv.2⟩
  back key row' hrow' := by
    rcases h.back key row' hrow' with ⟨row, hrow, hattempt, hsame⟩ | ⟨hnew, hfree⟩
    · exact .inl ⟨row, hrow, hattempt, congrArg g hsame⟩
    · exact .inr ⟨congrArg g hnew, hfree⟩

end Tables.Keeps

def Row.usage (row : Row) : Nat × Bool := (row.usage_sequence, row.usage_settled)

def Row.outcome (row : Row) : BusinessStatus × Nat × Bool := (row.business_status, row.usage)

structure Tables.Idle (t t' : Tables) : Prop where
  rows : t.Keeps Row.outcome (.pending, 0, false) t'
  results : t'.results = t.results
  usage_events : t'.usage_events = t.usage_events

theorem Tables.Idle.refl (t : Tables) : t.Idle t := ⟨.refl t, rfl, rfl⟩

theorem Tables.Idle.update (hg : ∀ row : Row, row.Same Row.outcome (g row)) :
    t.Idle (t.update start_key g) := ⟨.update hg rfl, rfl, rfl⟩

theorem prepare_idle (h : prepare L p t = .ok t') : t.Idle t' := by
  simp only [prepare, bind_ok, ensure_ok] at h
  obtain ⟨-, -, -, -, spec, -, h⟩ := h
  split at h
  · simp only [bind_ok, pure_ok] at h
    obtain ⟨-, -, rfl⟩ := h
    exact .refl t
  case h_2 hnone =>
    simp only [bind_ok, ensure_ok, pure_ok, Option.isNone_iff_eq_none] at h
    obtain ⟨-, -, -, -, -, hfree, rfl⟩ := h
    exact ⟨.put hnone (fun key row' hrow' => attempt?_none hfree hrow') rfl rfl, rfl, rfl⟩

theorem setControl_idle {control : Control} (h : setControl L attempt_id control t = .ok t') : t.Idle t' := by
  simp only [setControl, bind_ok] at h
  obtain ⟨-, -, -, -, h⟩ := h
  split at h
  · simp only [bind_ok, pure_ok] at h
    obtain ⟨-, -, rfl⟩ := h
    exact ⟨.of_eq rfl, rfl, rfl⟩
  · simp only [pure_ok] at h
    subst h
    exact ⟨.of_eq rfl, rfl, rfl⟩

theorem initializeControlOnce_idle
    (h : initializeControlOnce L attempt_id prepared_id fence authorization_ref before_write t =
      .ok (t', receipt)) : t.Idle t' := by
  simp only [initializeControlOnce, bind_ok, need_ok] at h
  obtain ⟨-, -, -, -, ⟨key, row⟩, -, -, -, -, -, h⟩ := h
  split at h
  · simp only [bind_ok, pair_ok] at h
    obtain ⟨-, -, -, -, rfl, -⟩ := h
    exact ⟨.of_eq rfl, rfl, rfl⟩
  · simp only [bind_ok, pair_ok] at h
    obtain ⟨-, -, rfl, -⟩ := h
    exact .refl t

theorem start_idle (h : start L prepared_id activation now t = .ok (t', outcome)) : t.Idle t' := by
  rcases start_ok h with ⟨rfl, -⟩ | ⟨starting, row, -, ha⟩
  · exact .refl t'
  · rw [ha.tables]
    exact .update fun _ => ⟨rfl, rfl⟩

theorem activate_idle (h : activate starting now t = .ok (t', spawns)) : t.Idle t' := by
  obtain ⟨-, rfl⟩ := activate_ok h
  exact .update fun _ => ⟨rfl, rfl⟩

variable {row : Row}

theorem Row.authorise_same : row.Same Row.outcome (row.authorise identity may_launch) := by
  unfold Row.authorise
  split <;> exact ⟨rfl, rfl⟩

theorem Row.register_same {runner identity : ProcessIdentity} :
    row.Same Row.outcome (row.register runner identity) := by
  unfold Row.register
  split <;> exact ⟨rfl, rfl⟩

theorem authorise_idle (h : authorise start_key row identity now t = .ok (t', may_launch)) : t.Idle t' := by
  obtain ⟨-, rfl⟩ := authorise_ok h
  exact .update fun _ => Row.authorise_same

theorem advanceStart_idle : s.tables.Idle (advanceStart w s starting stage).1.tables := by
  cases stage with
  | accepted =>
    simp only [advanceStart]
    split
    case h_1 ha => exact activate_idle ha
    case h_2 ha => exact activate_idle ha
    · exact .refl _
  | activated => simp only [advanceStart]; split <;> exact .refl _
  | spawned => exact .update fun _ => ⟨rfl, rfl⟩
  | ended => exact .refl _

theorem advanceSupervisor_idle {w : World} : t.Idle (advanceSupervisor w t start_key stage).1 := by
  cases stage with
  | begun | ended => exact .refl _
  | grouped row identity =>
    simp only [advanceSupervisor]
    split
    case h_1 ha => exact authorise_idle ha
    case h_2 ha => exact authorise_idle ha
    · exact .refl _
  | authorised row identity => simp only [advanceSupervisor]; split <;> exact .refl _
  | launched identity runner =>
    cases runner with
    | none => exact .refl _
    | some runner => exact .update fun _ => Row.register_same
  | watching =>
    simp only [advanceSupervisor]
    split
    · exact .refl _
    · split <;> exact .refl _
  | exited exit_code => exact .update fun _ => ⟨rfl, rfl⟩

/-- An action that neither decides a result, nor cancels, nor counts usage. -/
def Action.Launching : Action → Prop
  | .cancel .. | .receiveResult .. | .recordUsage .. | .settleUsage .. => False
  | _ => True

theorem commit_idle (h : ∀ t', result = .ok t' → t.Idle t') : t.Idle (commit t result) := by
  cases result with
  | ok t' => exact h t' rfl
  | error fault => exact .refl t

open State (step)

theorem step_idle (s : State) (a : Action) (h : a.Launching) : s.tables.Idle (s.step L a).tables := by
  cases a with
  | prepare preparation => exact commit_idle fun _ hok => prepare_idle hok
  | setControl attempt_id control => exact commit_idle fun _ hok => setControl_idle hok
  | initializeControlOnce attempt_id prepared_id fence authorization_ref before_write =>
    refine commit_idle fun t' hok => ?_
    obtain ⟨⟨t'', receipt⟩, hinit, rfl⟩ := map_ok.mp hok
    exact initializeControlOnce_idle hinit
  | start prepared_id activation now =>
    simp only [step, State.start]
    split
    case h_1 hs => exact start_idle hs
    · exact .refl _
  | advanceStart index w =>
    simp only [step, State.advanceStart]
    split
    · exact advanceStart_idle
    · exact .refl _
  | advanceSupervisor index w =>
    simp only [step, State.advanceSupervisor]
    split
    · exact advanceSupervisor_idle
    · exact .refl _
  | crashStart index | crashSupervisor index => exact .refl _
  | cancel | receiveResult | recordUsage | settleUsage => exact h.elim

namespace Event

def acceptedResult? : Event → Option String
  | .received attempt_id _ _ _ _ true => some attempt_id
  | _ => none

def recordedOf (attempt_id : String) : Event → Option Nat
  | .recorded attempt_id' _ sequence => if attempt_id' = attempt_id then some sequence else none
  | _ => none

def counts : Event → Bool
  | .received .. | .recorded .. | .settled _ => true
  | _ => false

end Event

theorem emit_launching (h : a.Launching) (he : emit L s a = some e) : e.counts = false := by
  cases a with
  | start prepared_id activation now =>
    simp only [emit] at he
    split at he
    · cases he; rfl
    · cases he
  | advanceStart index w | advanceSupervisor index w =>
    simp only [emit] at he
    split at he
    · split at he
      · cases he; rfl
      · cases he
    · split at he
      · cases he; rfl
      · cases he
    · cases he
  | prepare | setControl | initializeControlOnce | crashStart | crashSupervisor => cases he
  | cancel | receiveResult | recordUsage | settleUsage => exact h.elim

-- Usage

/-- The attempt was settled, and no usage of it was recorded since. -/
def SettledLast (log : List Event) (attempt_id : String) : Prop :=
  ∃ before after, log = before ++ .settled attempt_id :: after ∧
    ∀ event_id sequence, Event.recorded attempt_id event_id sequence ∉ after

structure Counted (t : Tables) (log : List Event) : Prop where
  stored : ∀ attempt_id event_id event, t.usage_events.get? (attempt_id, event_id) = some event →
    Event.recorded attempt_id event_id event.sequence ∈ log
  recorded : ∀ attempt_id event_id sequence, Event.recorded attempt_id event_id sequence ∈ log →
    (∃ event, t.usage_events.get? (attempt_id, event_id) = some event ∧ event.sequence = sequence) ∧
    ∃ key row, t.executions.get? key = some row ∧ row.attempt_id = attempt_id
  sequence : ∀ key row, t.executions.get? key = some row →
    row.usage_sequence = (log.filterMap (Event.recordedOf row.attempt_id)).length
  settled : ∀ key row, t.executions.get? key = some row → row.usage_settled = true →
    SettledLast log row.attempt_id

theorem SettledLast.snoc (h : SettledLast log attempt_id)
    (he : ∀ event_id sequence, e ≠ .recorded attempt_id event_id sequence) :
    SettledLast (log ++ [e]) attempt_id := by
  obtain ⟨before, after, rfl, hafter⟩ := h
  refine ⟨before, after ++ [e], by simp, fun event_id sequence hm => ?_⟩
  rcases List.mem_append.mp hm with hm | hm
  · exact hafter event_id sequence hm
  · exact he event_id sequence (List.mem_singleton.mp hm).symm

theorem recordedOf_none (h : e.counts = false) : e.recordedOf attempt_id = none := by
  cases e <;> first | rfl | cases h

section
variable (h : Counted t log)
include h

theorem Counted.beside (he : ∀ attempt_id, e.recordedOf attempt_id = none) : Counted t (log ++ [e]) where
  stored attempt_id event_id event hevent := mem_snoc_left (h.stored attempt_id event_id event hevent)
  recorded attempt_id event_id sequence hm := by
    rcases List.mem_append.mp hm with hm | hm
    · exact h.recorded attempt_id event_id sequence hm
    · have hnone := he attempt_id
      rw [← List.mem_singleton.mp hm] at hnone
      simp [Event.recordedOf] at hnone
  sequence key row hrow := by simpa [he] using h.sequence key row hrow
  settled key row hrow hsettled := by
    refine (h.settled key row hrow hsettled).snoc ?_
    rintro event_id sequence rfl
    simpa [Event.recordedOf] using he row.attempt_id

theorem Counted.keeps (hk : t.Keeps Row.usage (0, false) t')
    (hu : t'.usage_events = t.usage_events) : Counted t' log := by
  have hback : ∀ key row', t'.executions.get? key = some row' →
      row'.usage_sequence = (log.filterMap (Event.recordedOf row'.attempt_id)).length ∧
        (row'.usage_settled = true → SettledLast log row'.attempt_id) := by
    intro key row' hrow'
    rcases hk.back key row' hrow' with ⟨row, hrow, hattempt, hsame⟩ | ⟨hnew, hfree⟩
    · obtain ⟨hsequence, hsettled⟩ := Prod.mk.injEq .. ▸ hsame
      rw [hattempt, hsequence, hsettled]
      exact ⟨h.sequence key row hrow, h.settled key row hrow⟩
    · obtain ⟨hsequence, hsettled⟩ := Prod.mk.injEq .. ▸ hnew
      have hnone : log.filterMap (Event.recordedOf row'.attempt_id) = [] := by
        refine List.filterMap_eq_nil_iff.mpr fun e he => ?_
        cases e with
        | recorded attempt_id event_id sequence =>
          obtain ⟨-, key', row, hrow, rfl⟩ := h.recorded attempt_id event_id sequence he
          simp [Event.recordedOf, hfree key' row hrow]
        | _ => rfl
      refine ⟨by simp [hsequence, hnone], fun hs => ?_⟩
      simp [hsettled] at hs
  refine ⟨hu ▸ h.stored, fun attempt_id event_id sequence hm => ?_, fun key row hrow => (hback key row hrow).1,
    fun key row hrow => (hback key row hrow).2⟩
  obtain ⟨hevent, key, row, hrow, rfl⟩ := h.recorded attempt_id event_id sequence hm
  obtain ⟨row', hrow', hattempt, -⟩ := hk.forward key row hrow
  exact ⟨hu ▸ hevent, key, row', hrow', hattempt⟩

theorem Counted.records (hs : t.Sound) (hr : Records attempt_id event_id t t' start_key row) :
    Counted t' (log ++ [.recorded attempt_id event_id (row.usage_sequence + 1)]) := by
  obtain ⟨event, hsequence, hevents⟩ := hr.usage_events
  obtain ⟨hrow, hattempt⟩ := attempt?_some hr.found
  have hback : ∀ key row', t'.executions.get? key = some row' →
      key = start_key ∧ row' = row.recordUsage (row.usage_sequence + 1) ∨
      t.executions.get? key = some row' ∧ row'.attempt_id ≠ attempt_id := by
    intro key row' hrow'
    rw [hr.executions, Tables.Moves.get?_update, hrow] at hrow'
    split at hrow'
    case isTrue hkey => cases hrow'; exact .inl ⟨hkey, rfl⟩
    case isFalse hkey =>
      refine .inr ⟨hrow', fun heq => hkey ?_⟩
      exact hs.one_key _ _ _ _ hrow' hrow (heq.trans hattempt.symm)
  have hother : ∀ other, other ≠ attempt_id →
      (Event.recorded attempt_id event_id (row.usage_sequence + 1)).recordedOf other = none :=
    fun other hne => by simp [Event.recordedOf, hne.symm]
  refine ⟨?_, ?_, ?_, ?_⟩
  · intro attempt_id' event_id' event' hget
    rw [hevents, get?_put] at hget
    split at hget
    case isTrue hkey =>
      cases hget
      cases hkey
      rw [hsequence]
      exact mem_snoc_right
    · exact mem_snoc_left (h.stored attempt_id' event_id' event' hget)
  · intro attempt_id' event_id' sequence hm
    have hstored : ∀ key old, t.executions.get? key = some old →
        ∃ key row', t'.executions.get? key = some row' ∧ row'.attempt_id = old.attempt_id := by
      intro key old hold
      by_cases hkey : key = start_key
      · subst hkey
        rw [hrow] at hold
        cases hold
        exact ⟨key, row.recordUsage (row.usage_sequence + 1),
          by simp [hr.executions, Tables.Moves.get?_update, hrow], rfl⟩
      · exact ⟨key, old, by simp [hr.executions, Tables.Moves.get?_update, hkey, hold], rfl⟩
    rcases List.mem_append.mp hm with hm | hm
    · obtain ⟨⟨event', hevent', hseq⟩, key, old, hold, rfl⟩ := h.recorded attempt_id' event_id' sequence hm
      refine ⟨⟨event', ?_, hseq⟩, hstored key old hold⟩
      rw [hevents, get?_put_of_ne ?_, hevent']
      rintro heq
      rw [← heq, hr.fresh] at hevent'
      cases hevent'
    · cases List.mem_singleton.mp hm
      refine ⟨⟨event, by simp [hevents], hsequence⟩, ?_⟩
      obtain ⟨key, row', hrow', hsame⟩ := hstored start_key row hrow
      exact ⟨key, row', hrow', hsame.trans hattempt⟩
  · intro key row' hrow'
    rcases hback key row' hrow' with ⟨rfl, rfl⟩ | ⟨hold, hne⟩
    · have hcount := h.sequence key row hrow
      have hsame : (row.recordUsage (row.usage_sequence + 1)).attempt_id = attempt_id := hattempt
      rw [hattempt] at hcount
      have hself : (Event.recorded attempt_id event_id (row.usage_sequence + 1)).recordedOf attempt_id =
          some (row.usage_sequence + 1) := if_pos rfl
      rw [hsame, filterMap_append, filterMap_cons_some hself, length_append, ← hcount]
      rfl
    · simpa [hother _ hne] using h.sequence key row' hold
  · intro key row' hrow' hsettled
    rcases hback key row' hrow' with ⟨rfl, rfl⟩ | ⟨hold, hne⟩
    · simp [Row.recordUsage] at hsettled
    · refine (h.settled key row' hold hsettled).snoc ?_
      rintro event_id' sequence heq
      cases heq
      exact hne rfl

theorem Counted.settles (hfound : t.attempt? attempt_id = some (start_key, row)) :
    Counted (t.update start_key ({ · with usage_settled := true })) (log ++ [.settled attempt_id]) := by
  obtain ⟨hrow, hattempt⟩ := attempt?_some hfound
  have hb := h.beside (e := .settled attempt_id) fun _ => rfl
  have hback : ∀ key row', (t.update start_key ({ · with usage_settled := true })).executions.get? key =
      some row' → key = start_key ∧ row' = { row with usage_settled := true } ∨
        t.executions.get? key = some row' := by
    intro key row' hrow'
    rw [Tables.Moves.get?_update, hrow] at hrow'
    split at hrow'
    case isTrue hkey => cases hrow'; exact .inl ⟨hkey, rfl⟩
    · exact .inr hrow'
  refine ⟨hb.stored, fun attempt_id' event_id sequence hm => ?_, ?_, ?_⟩
  · obtain ⟨hevent, key, old, hold, hsame⟩ := hb.recorded attempt_id' event_id sequence hm
    by_cases hkey : key = start_key
    · subst hkey
      exact ⟨hevent, key, { old with usage_settled := true },
        by rw [Tables.Moves.get?_update, if_pos rfl, hold]; rfl, hsame⟩
    · exact ⟨hevent, key, old, by rw [Tables.Moves.get?_update, if_neg hkey, hold], hsame⟩
  · intro key row' hrow'
    rcases hback key row' hrow' with ⟨rfl, rfl⟩ | hold
    · exact hb.sequence key row hrow
    · exact hb.sequence key row' hold
  · intro key row' hrow' hsettled
    rcases hback key row' hrow' with ⟨rfl, rfl⟩ | hold
    · exact ⟨log, [], by simp [hattempt], by simp⟩
    · exact hb.settled key row' hold hsettled

end

-- Results

/-- The supervisor refused the launch: the row is finished without an exit code. -/
def LaunchRefused (row : Row) : Prop := row.state = .finished ∧ row.exit_code = none

/-- No new result arrives, under the attempt's own fence, for an attempt whose launch was refused. -/
def SparesRefused (s : State) : Action → Prop
  | .receiveResult attempt_id fence event_id _ => ∀ key row,
      s.tables.attempt? attempt_id = some (key, row) →
      s.tables.results.get? (attempt_id, event_id) = none → row.cancelled = false →
      row.business_status = .pending →
      currentFence (s.tables.controls.get? attempt_id) row.manifest fence = true → ¬LaunchRefused row
  | _ => True

/-- What justifies a result and a usage event, given what happened before. -/
def Receives (before : List Event) : Event → Prop
  | .received attempt_id _ found control fence accepted => accepted = true →
      attempt_id ∉ before.filterMap Event.acceptedResult? ∧
      ∃ key row current, found = some (key, row) ∧ row.attempt_id = attempt_id ∧
        row.cancelled = false ∧ control = some current ∧ current.fence = row.manifest.fence ∧
        current.authorization_ref = row.manifest.authorization_ref ∧ fence = row.manifest.fence ∧
        key ∈ before.filterMap Event.authorised?
  | .recorded attempt_id event_id sequence =>
      sequence = (before.filterMap (Event.recordedOf attempt_id)).length + 1 ∧
      ∀ sequence, Event.recorded attempt_id event_id sequence ∉ before
  | _ => True

structure ResultInv (s : State) (log : List Event) : Prop where
  launch : LaunchInv s log
  justified : Justified Receives log
  accepted : ∀ attempt_id ∈ log.filterMap Event.acceptedResult?,
    ∃ key row, s.tables.executions.get? key = some row ∧ row.attempt_id = attempt_id ∧
      row.business_status = .done
  counted : Counted s.tables log

theorem accepted_later (h : ∃ key row, t.executions.get? key = some row ∧ row.attempt_id = attempt_id ∧
      row.business_status = .done) (hm : t.Moves may t') :
    ∃ key row, t'.executions.get? key = some row ∧ row.attempt_id = attempt_id ∧
      row.business_status = .done := by
  obtain ⟨key, row, hrow, rfl, hdone⟩ := h
  obtain ⟨row', hrow', hmoves⟩ := hm.rows key row hrow
  have hbusiness := hmoves.business (by simp [hdone])
  exact ⟨key, row', hrow', hmoves.attempt_id, hbusiness.trans hdone⟩

theorem acceptedResult_none (h : e.counts = false) : e.acceptedResult? = none := by
  cases e <;> first | rfl | cases h

theorem Receives.beside (h : e.counts = false) : Receives log e := by
  cases e <;> trivial

theorem ResultInv.beside (h : ResultInv s log) (hl : LaunchInv s' (log ++ o.toList))
    (ho : ∀ e, o = some e → e.counts = false) (hm : s.tables.Moves (fun _ => True) s'.tables)
    (hc : Counted s'.tables log) : ResultInv s' (log ++ o.toList) where
  launch := hl
  justified := h.justified.emitted fun e he => .beside (ho e he)
  accepted attempt_id hk := by
    refine accepted_later (h.accepted attempt_id ?_) hm
    cases o with
    | none => simpa using hk
    | some e => simpa [acceptedResult_none (ho e rfl)] using hk
  counted := by
    cases o with
    | none => simpa using hc
    | some e => exact hc.beside fun attempt_id => recordedOf_none (ho e rfl)

variable {p : State × List Event}

theorem currentFence_ok {control : Option Control}
    (h : currentFence control manifest fence = true) : ∃ current, control = some current ∧
      current.fence = manifest.fence ∧ current.authorization_ref = manifest.authorization_ref ∧
      fence = manifest.fence := by
  cases control with
  | none => cases h
  | some current =>
    simp only [currentFence, Bool.and_eq_true, decide_eq_true_eq] at h
    exact ⟨current, rfl, h.1.2.symm, h.2, h.1.1⟩

theorem SparesRefused.ran (h : SparesRefused s (.receiveResult attempt_id fence event_id result))
    (hfound : s.tables.attempt? attempt_id = some (key, row))
    (hfresh : s.tables.results.get? (attempt_id, event_id) = none)
    (haccepts : acceptsResult row (s.tables.controls.get? attempt_id) fence = true) : row.Ran := by
  obtain ⟨hlive, hpending, hfence, hstate⟩ := acceptsResult_ok haccepts
  rcases hstate with hstate | hstate
  · exact .inl hstate
  · refine .inr (Option.isSome_iff_ne_none.mpr fun hnone => ?_)
    exact h key row hfound hfresh hlive hpending hfence ⟨hstate, hnone⟩

theorem emit_receiveResult (hd : Decides L attempt_id event_id fence result s.tables t key row decided)
    (hr : receiveResult L attempt_id fence event_id result s.tables = .ok (t, decided)) :
    emit L s (.receiveResult attempt_id fence event_id result) =
      some (.received attempt_id event_id (some (key, row)) (s.tables.controls.get? attempt_id) fence
        decided.accepted) := by
  simp only [emit, hr, hd.fresh, hd.found]

theorem emit_receiveResult_replayed (h : (s.tables.results.get? (attempt_id, event_id)).isSome) :
    emit L s (.receiveResult attempt_id fence event_id result) = none := by
  obtain ⟨row, hrow⟩ := Option.isSome_iff_exists.mp h
  simp [emit, hrow]

theorem emit_receiveResult_refused
    (h : receiveResult L attempt_id fence event_id result s.tables = .error fault) :
    emit L s (.receiveResult attempt_id fence event_id result) = none := by
  simp only [emit, h]
  split <;> simp_all

theorem recorded_absent (h : Counted t log)
    (hfresh : t.usage_events.get? (attempt_id, event_id) = none) (sequence : Nat) :
    Event.recorded attempt_id event_id sequence ∉ log := by
  intro hm
  obtain ⟨⟨event, hevent, -⟩, -⟩ := h.recorded attempt_id event_id sequence hm
  simp [hfresh] at hevent

theorem emit_recordUsage (hr : recordUsage L attempt_id fence event_id usage s.tables = .ok t)
    (hfresh : s.tables.usage_events.get? (attempt_id, event_id) = none)
    (hevent : t.usage_events.get? (attempt_id, event_id) = some event) :
    emit L s (.recordUsage attempt_id fence event_id usage) =
      some (.recorded attempt_id event_id event.sequence) := by
  simp [emit, hr, hfresh, hevent]

theorem emit_recordUsage_replayed (h : (s.tables.usage_events.get? (attempt_id, event_id)).isSome) :
    emit L s (.recordUsage attempt_id fence event_id usage) = none := by
  obtain ⟨event, hevent⟩ := Option.isSome_iff_exists.mp h
  simp [emit, hevent]

theorem emit_recordUsage_refused (h : recordUsage L attempt_id fence event_id usage s.tables = .error fault) :
    emit L s (.recordUsage attempt_id fence event_id usage) = none := by
  simp only [emit, h]
  split <;> simp_all

section
variable (h : ResultInv p.1 p.2)
include h

theorem ResultInv.launches (ha : a.Launching) : ResultInv (p.1.step L a) (p.2 ++ (emit L p.1 a).toList) := by
  have hidle := step_idle (L := L) p.1 a ha
  refine h.beside (launchInv_step p a h.launch) (fun e he => emit_launching ha he) (step_moves p.1 a) ?_
  exact h.counted.keeps (hidle.rows.comp Prod.snd) hidle.usage_events

theorem ResultInv.cancels :
    ResultInv (p.1.step L (.cancel attempt_id cancel_key timeout_seconds expected_binding)) (p.2 ++
      (emit L p.1 (.cancel attempt_id cancel_key timeout_seconds expected_binding)).toList) := by
  refine h.beside (launchInv_step p _ h.launch) ?_ (step_moves p.1 _) ?_
  · intro e he
    simp only [emit] at he
    split at he
    · obtain ⟨entry, -, rfl⟩ := Option.map_eq_some_iff.mp he
      rfl
    · cases he
  · show Counted (commit p.1.tables _) p.2
    simp only [serve]
    generalize hc : cancel L attempt_id cancel_key timeout_seconds expected_binding p.1.tables = outcome
    rcases outcome with fault | t
    · exact h.counted
    · obtain ⟨key, row, -, hrows, -, -, hevents⟩ := cancel_ok hc
      exact h.counted.keeps (.update (g := Row.cancel) (fun _ => ⟨rfl, rfl⟩) hrows) hevents

theorem ResultInv.receives (hspares : SparesRefused p.1 (.receiveResult attempt_id fence event_id result)) :
    ResultInv (p.1.step L (.receiveResult attempt_id fence event_id result)) (p.2 ++
      (emit L p.1 (.receiveResult attempt_id fence event_id result)).toList) := by
  have hlaunch := launchInv_step (L := L) p (.receiveResult attempt_id fence event_id result) h.launch
  have hmoves := step_moves (L := L) p.1 (.receiveResult attempt_id fence event_id result)
  simp only [step, serve] at hlaunch hmoves ⊢
  generalize hr : receiveResult L attempt_id fence event_id result p.1.tables = outcome at hlaunch hmoves ⊢
  rcases outcome with fault | ⟨t, decided⟩
  · rw [emit_receiveResult_refused hr] at hlaunch ⊢
    exact h.beside hlaunch (by simp) hmoves h.counted
  rcases receiveResult_ok hr with ⟨rfl, row, hrow, -⟩ | ⟨key, row, hd⟩
  · rw [emit_receiveResult_replayed (by simp [hrow])] at hlaunch ⊢
    exact h.beside hlaunch (by simp) hmoves h.counted
  obtain ⟨hrow, hattempt⟩ := attempt?_some hd.found
  rw [emit_receiveResult hd hr] at hlaunch ⊢
  have hcounted : Counted t p.2 := by
    refine h.counted.keeps ?_ hd.usage_events
    have hrows := hd.executions
    split at hrows
    · exact .update (g := ({ · with business_status := .done })) (fun _ => ⟨rfl, rfl⟩) hrows
    · exact .of_eq hrows
  refine ⟨hlaunch, h.justified.snoc ?_, ?_, hcounted.beside fun _ => rfl⟩
  · intro haccepted
    rw [hd.decided] at haccepted
    obtain ⟨hlive, hpending, hfence, -⟩ := acceptsResult_ok haccepted
    obtain ⟨current, hcurrent, hsame, hauthorization, hown⟩ := currentFence_ok hfence
    refine ⟨fun hm => ?_, key, row, current, rfl, hattempt, hlive, hcurrent, hsame, hauthorization, hown,
      h.launch.recorded.ran key row hrow (hspares.ran hd.found hd.fresh haccepted)⟩
    obtain ⟨key', row', hrow', hattempt', hdone⟩ := h.accepted attempt_id hm
    cases h.launch.recorded.sound.one_key _ _ _ _ hrow' hrow (hattempt'.trans hattempt.symm)
    rw [hrow] at hrow'
    cases hrow'
    simp [hdone] at hpending
  · intro attempt_id' hm
    rw [filterMap_append, mem_append] at hm
    rcases hm with hm | hm
    · exact accepted_later (h.accepted attempt_id' hm) hmoves
    · cases haccepted : decided.accepted with
      | false =>
        rw [haccepted] at hm
        cases hm
      | true =>
        rw [haccepted] at hm
        cases List.mem_singleton.mp hm
        have hrows := hd.executions
        rw [if_pos haccepted] at hrows
        refine ⟨key, { row with business_status := .done }, ?_, hattempt, rfl⟩
        show t.executions.get? key = _
        rw [hrows, Tables.Moves.get?_update, if_pos rfl, hrow]
        rfl

theorem ResultInv.recordsUsage : ResultInv (p.1.step L (.recordUsage attempt_id fence event_id usage)) (p.2 ++
      (emit L p.1 (.recordUsage attempt_id fence event_id usage)).toList) := by
  have hlaunch := launchInv_step (L := L) p (.recordUsage attempt_id fence event_id usage) h.launch
  have hmoves := step_moves (L := L) p.1 (.recordUsage attempt_id fence event_id usage)
  simp only [step, serve] at hlaunch hmoves ⊢
  generalize hr : recordUsage L attempt_id fence event_id usage p.1.tables = outcome at hlaunch hmoves ⊢
  rcases outcome with fault | t
  · rw [emit_recordUsage_refused hr] at hlaunch ⊢
    exact h.beside hlaunch (by simp) hmoves h.counted
  rcases recordUsage_ok hr with ⟨rfl, hold⟩ | ⟨key, row, hrec⟩
  · rw [emit_recordUsage_replayed hold] at hlaunch ⊢
    exact h.beside hlaunch (by simp) hmoves h.counted
  obtain ⟨event, hsequence, hevents⟩ := hrec.usage_events
  obtain ⟨hrow, hattempt⟩ := attempt?_some hrec.found
  have hevent : t.usage_events.get? (attempt_id, event_id) = some event := by simp [hevents]
  rw [emit_recordUsage hr hrec.fresh hevent, hsequence] at hlaunch ⊢
  have hcount : row.usage_sequence = (p.2.filterMap (Event.recordedOf attempt_id)).length :=
    hattempt ▸ h.counted.sequence key row hrow
  refine ⟨hlaunch, h.justified.snoc ⟨by rw [hcount], recorded_absent h.counted hrec.fresh⟩, ?_,
    h.counted.records h.launch.recorded.sound hrec⟩
  intro attempt_id' hm
  exact accepted_later (h.accepted attempt_id' (by simpa [Event.acceptedResult?] using hm)) hmoves

theorem ResultInv.settlesUsage : ResultInv (p.1.step L (.settleUsage attempt_id through_sequence)) (p.2 ++
      (emit L p.1 (.settleUsage attempt_id through_sequence)).toList) := by
  have hlaunch := launchInv_step (L := L) p (.settleUsage attempt_id through_sequence) h.launch
  have hmoves := step_moves (L := L) p.1 (.settleUsage attempt_id through_sequence)
  simp only [step, serve, emit] at hlaunch hmoves ⊢
  generalize hs : settleUsage attempt_id through_sequence p.1.tables = outcome at hlaunch hmoves ⊢
  rcases outcome with fault | t
  · exact h.beside (o := none) hlaunch (by simp) hmoves h.counted
  obtain ⟨key, row, hfound, rfl⟩ := settleUsage_ok hs
  refine ⟨hlaunch, h.justified.snoc trivial, ?_, h.counted.settles hfound⟩
  intro attempt_id' hm
  exact accepted_later (h.accepted attempt_id' (by simpa [Event.acceptedResult?] using hm)) hmoves

end

-- Runs

theorem Counted.empty : Counted Tables.empty [] where
  stored attempt_id event_id event h := by cases h
  recorded := by simp
  sequence key row h := by cases h
  settled key row h := by cases h

theorem resultInv_initial : ResultInv State.empty [] where
  launch := launchInv_initial
  justified := .nil
  accepted := by simp
  counted := .empty

theorem resultInv_step (p : State × List Event) (a : Action) (h : ResultInv p.1 p.2)
    (ha : SparesRefused p.1 a) : ResultInv (p.1.step L a) (p.2 ++ (emit L p.1 a).toList) := by
  cases a with
  | receiveResult attempt_id fence event_id result => exact h.receives ha
  | recordUsage attempt_id fence event_id usage => exact h.recordsUsage
  | settleUsage attempt_id through_sequence => exact h.settlesUsage
  | cancel attempt_id cancel_key timeout_seconds expected_binding => exact h.cancels
  | prepare preparation | setControl attempt_id control | start prepared_id activation now
  | advanceStart index w | advanceSupervisor index w | crashStart index | crashSupervisor index =>
    exact h.launches trivial
  | initializeControlOnce attempt_id prepared_id fence authorization_ref before_write =>
    exact h.launches trivial

theorem resultInv_reach (h : ((system L).traced (emit L)).Reach (fun p a => SparesRefused p.1 a) p) :
    ResultInv p.1 p.2 := by
  refine h.invariant ?_ fun p a hp ha => resultInv_step p a hp ha
  rintro ⟨s, log⟩ ⟨hs, hlog⟩
  cases hs
  cases hlog
  exact resultInv_initial

-- Replays

theorem receiveResult_results (h : receiveResult L attempt_id fence event_id result t = .ok (t', decided)) :
    t.results.Grows Eq t'.results := by
  rcases receiveResult_ok h with ⟨rfl, -⟩ | ⟨key, row, hd⟩
  · exact .refl (fun _ => rfl) _
  · rw [hd.results]
    exact .put_new (fun _ => rfl) hd.fresh

theorem step_results (s : State) (a : Action) : s.tables.results.Grows Eq (s.step L a).tables.results := by
  have hsame : ∀ t : Tables, t.results = s.tables.results → s.tables.results.Grows Eq t.results :=
    fun t ht => ht ▸ .refl (fun _ => rfl) _
  have hcommit : ∀ result : Except Fault Tables, (∀ t', result = .ok t' →
      s.tables.results.Grows Eq t'.results) → s.tables.results.Grows Eq (commit s.tables result).results := by
    intro result h
    cases result with
    | ok t' => exact h t' rfl
    | error fault => exact .refl (fun _ => rfl) _
  by_cases hlaunching : a.Launching
  · exact hsame _ (step_idle s a hlaunching).results
  · cases a with
    | cancel attempt_id cancel_key timeout_seconds expected_binding =>
      refine hcommit _ fun t' hok => hsame t' ?_
      obtain ⟨key, row, -, -, -, hresults, -⟩ := cancel_ok hok
      exact hresults
    | receiveResult attempt_id fence event_id result =>
      refine hcommit _ fun t' hok => ?_
      obtain ⟨⟨t'', decided⟩, hr, rfl⟩ := map_ok.mp hok
      exact receiveResult_results hr
    | recordUsage attempt_id fence event_id usage =>
      refine hcommit _ fun t' hok => hsame t' ?_
      rcases recordUsage_ok hok with ⟨rfl, -⟩ | ⟨key, row, hr⟩
      · rfl
      · exact hr.results
    | settleUsage attempt_id through_sequence =>
      refine hcommit _ fun t' hok => hsame t' ?_
      obtain ⟨key, row, -, rfl⟩ := settleUsage_ok hok
      rfl
    | _ => exact absurd trivial hlaunching

theorem receiveResult_recorded (h : receiveResult L attempt_id fence event_id result t = .ok (t', decided)) :
    (L.identifier attempt_id && L.identifier event_id && 0 < fence) = true ∧
    (∃ key row, t'.executions.get? key = some row ∧ row.attempt_id = attempt_id) ∧
    t'.results.get? (attempt_id, event_id) = some ⟨resultPayload L fence result, decided⟩ := by
  have hparts := h
  simp only [receiveResult, bind_ok, ensure_ok, need_ok] at hparts
  obtain ⟨-, hcontract, ⟨key, row⟩, hfound, hparts⟩ := hparts
  obtain ⟨hrow, hattempt⟩ := attempt?_some hfound
  have hmoves : t.Moves (fun _ => True) t' := receiveResult_moves h
  obtain ⟨row', hrow', hm⟩ := hmoves.rows key row hrow
  refine ⟨hcontract, ⟨key, row', hrow', hm.attempt_id.trans hattempt⟩, ?_⟩
  rcases receiveResult_ok h with ⟨rfl, existing, hexisting, rfl⟩ | ⟨key', row'', hd⟩
  · simp only [hexisting, bind_ok, ensure_ok, decide_eq_true_eq] at hparts
    obtain ⟨-, hpayload, -⟩ := hparts
    rw [hexisting, ← hpayload]
  · simp [hd.results]

theorem receiveResult_replayed
    (hcontract : (L.identifier attempt_id && L.identifier event_id && 0 < fence) = true)
    (hfound : t.attempt? attempt_id = some (key, row))
    (hrecorded : t.results.get? (attempt_id, event_id) = some ⟨resultPayload L fence result, decided⟩) :
    receiveResult L attempt_id fence event_id result t = .ok (t, decided) := by
  simp only [receiveResult, bind_ok, ensure_ok, need_ok]
  refine ⟨(), hcontract, (key, row), hfound, ?_⟩
  simp only [hrecorded, bind_ok, ensure_ok, decide_eq_true_eq]
  exact ⟨(), trivial, rfl⟩

-- The business status

/-- What a step may make of a business status, with the event that says so. -/
def BusinessStep (o : Option Event) (key : String) (row row' : Row) : Prop :=
  row'.business_status = row.business_status ∨ row.business_status = .pending ∧
    (row'.business_status = .done ∧ (∃ event_id found control fence,
        o = some (.received row.attempt_id event_id found control fence true)) ∨
      row'.business_status = .cancelled ∧ o = some (.cancelled key row))

theorem BusinessStep.of_grows (h : t.executions.Grows R t'.executions)
    (hR : ∀ row row', R row row' → row'.business_status = row.business_status)
    (hrow : t.executions.get? key = some row) :
    ∃ row', t'.executions.get? key = some row' ∧ BusinessStep o key row row' := by
  obtain ⟨row', hrow', hr⟩ := h key row hrow
  exact ⟨row', hrow', .inl (hR row row' hr)⟩

theorem BusinessStep.of_update (h : t'.executions = (t.update start_key f).executions)
    (hf : key = start_key → BusinessStep o key row (f row)) (hrow : t.executions.get? key = some row) :
    ∃ row', t'.executions.get? key = some row' ∧ BusinessStep o key row row' := by
  rw [h, Tables.Moves.get?_update]
  split
  case isTrue hkey =>
    have hstep := hf hkey
    subst hkey
    exact ⟨f row, by rw [hrow]; rfl, hstep⟩
  · exact ⟨row, hrow, .inl rfl⟩

open BusinessStep (of_grows of_update)

theorem cancel_business (hrow : s.tables.executions.get? key = some row) :
    ∃ row', (s.step L (.cancel attempt_id cancel_key timeout_seconds expected_binding)).tables.executions.get?
        key = some row' ∧ BusinessStep
          (emit L s (.cancel attempt_id cancel_key timeout_seconds expected_binding)) key row row' := by
  simp only [step, serve, emit]
  generalize hc : cancel L attempt_id cancel_key timeout_seconds expected_binding s.tables = outcome
  rcases outcome with fault | t
  · exact ⟨row, hrow, .inl rfl⟩
  obtain ⟨start_key, found, hfound, hrows, -⟩ := cancel_ok hc
  refine of_update hrows (fun hkey => ?_) hrow
  subst hkey
  have hown := (attempt?_some hfound).1
  rw [hrow] at hown
  cases hown
  by_cases hpending : row.business_status = .pending
  · refine .inr ⟨hpending, .inr ⟨by simp [Row.cancel, hpending], by simp [hfound]⟩⟩
  · exact .inl (by simp [Row.cancel, hpending])

theorem receiveResult_business (hrow : s.tables.executions.get? key = some row) :
    ∃ row', (s.step L (.receiveResult attempt_id fence event_id result)).tables.executions.get? key =
        some row' ∧ BusinessStep (emit L s (.receiveResult attempt_id fence event_id result)) key row row' := by
  simp only [step, serve]
  generalize hr : receiveResult L attempt_id fence event_id result s.tables = outcome
  rcases outcome with fault | ⟨t, decided⟩
  · exact ⟨row, hrow, .inl rfl⟩
  rcases receiveResult_ok hr with ⟨rfl, -⟩ | ⟨start_key, found, hd⟩
  · exact ⟨row, hrow, .inl rfl⟩
  have hrows := hd.executions
  split at hrows
  case isTrue haccepted =>
    refine of_update hrows (fun hkey => ?_) hrow
    subst hkey
    obtain ⟨hown, hattempt⟩ := attempt?_some hd.found
    rw [hrow] at hown
    cases hown
    have haccepts := haccepted
    rw [hd.decided] at haccepts
    obtain ⟨-, hpending, -⟩ := acceptsResult_ok haccepts
    refine .inr ⟨hpending, .inl ⟨rfl, event_id, some (key, row), s.tables.controls.get? attempt_id, fence, ?_⟩⟩
    rw [emit_receiveResult hd hr, haccepted, hattempt]
  · exact ⟨row, hrows ▸ hrow, .inl rfl⟩

theorem step_business (s : State) (a : Action) (hrow : s.tables.executions.get? key = some row) :
    ∃ row', (s.step L a).tables.executions.get? key = some row' ∧
      BusinessStep (emit L s a) key row row' := by
  by_cases hlaunching : a.Launching
  · exact of_grows (step_idle s a hlaunching).rows.forward
      (fun row row' h => congrArg Prod.fst h.2) hrow
  · cases a with
    | cancel attempt_id cancel_key timeout_seconds expected_binding => exact cancel_business hrow
    | receiveResult attempt_id fence event_id result => exact receiveResult_business hrow
    | recordUsage attempt_id fence event_id usage =>
      simp only [step, serve]
      generalize hr : recordUsage L attempt_id fence event_id usage s.tables = outcome
      rcases outcome with fault | t
      · exact ⟨row, hrow, .inl rfl⟩
      rcases recordUsage_ok hr with ⟨rfl, -⟩ | ⟨start_key, found, hrec⟩
      · exact ⟨row, hrow, .inl rfl⟩
      · exact of_update hrec.executions (fun _ => .inl rfl) hrow
    | settleUsage attempt_id through_sequence =>
      simp only [step, serve]
      generalize hr : settleUsage attempt_id through_sequence s.tables = outcome
      rcases outcome with fault | t
      · exact ⟨row, hrow, .inl rfl⟩
      obtain ⟨start_key, found, -, rfl⟩ := settleUsage_ok hr
      exact of_update rfl (fun _ => .inl rfl) hrow
    | _ => exact absurd trivial hlaunching

theorem recordedOf_filterMap (h : Justified Receives log) (attempt_id : String) :
    log.filterMap (Event.recordedOf attempt_id) =
      range' 1 (log.filterMap (Event.recordedOf attempt_id)).length := by
  induction log using reverseRecOn with
  | nil => rfl
  | append_singleton log e ih =>
    have hlog : Justified Receives log := fun before e' after heq =>
      h before e' (after ++ [e]) (by simp [heq])
    have hlast := h log e [] rfl
    specialize ih hlog
    rw [filterMap_append]
    cases he : e.recordedOf attempt_id with
    | none => simpa [he] using ih
    | some sequence =>
      have hsequence : sequence = (log.filterMap (Event.recordedOf attempt_id)).length + 1 := by
        cases e <;> simp only [Event.recordedOf, reduceCtorEq] at he
        split at he
        case isFalse => cases he
        case isTrue hsame =>
          subst hsame
          cases he
          exact hlast.1
      rw [filterMap_cons_some he, filterMap_nil, length_append, length_singleton,
        range'_1_concat, ← ih, hsequence, Nat.add_comm 1]

/-- A replay of a result returns the decision that was recorded first. -/
def Replays (L : Library) (s : State) (log : List Event) : Prop := ∀ attempt_id fence event_id result t decided,
    receiveResult L attempt_id fence event_id result s.tables = .ok (t, decided) →
    ∀ p, ((system L).traced (emit L)).Path System.free
        (((system L).traced (emit L)).step (s, log) (.receiveResult attempt_id fence event_id result)) p →
      receiveResult L attempt_id fence event_id result p.1.tables = .ok (p.1.tables, decided)

theorem LaunchInv.replays (h : LaunchInv s log) : Replays L s log := by
  intro attempt_id fence event_id result t decided hr p hp
  obtain ⟨hcontract, ⟨key, row, hrow, hattempt⟩, hrecorded⟩ := receiveResult_recorded hr
  have hfirst : (s.step L (.receiveResult attempt_id fence event_id result)).tables = t := by
    simp only [step, serve, hr]
    rfl
  have hstart := launchInv_step (L := L) (s, log) (.receiveResult attempt_id fence event_id result) h
  have hlater : LaunchInv p.1 p.2 ∧ Later t p.1.tables := by
    have hpath := path_later (p := ((system L).traced (emit L)).step (s, log)
      (.receiveResult attempt_id fence event_id result)) hstart hp
    exact ⟨hpath.1, hfirst ▸ hpath.2⟩
  have hkept : t.results.Grows Eq p.1.tables.results := by
    refine hp.keeps (I := fun q => t.results.Grows Eq q.1.tables.results) (fun q a hq _ => ?_) ?_
    · exact hq.trans (fun _ _ _ => Eq.trans) (step_results q.1 a)
    · exact hfirst ▸ .refl (fun _ => rfl) _
  obtain ⟨row', hrow', hbound⟩ := hlater.2.rows key row hrow
  obtain ⟨recorded, hrecorded', rfl⟩ := hkept _ _ hrecorded
  have hfound := hlater.1.recorded.sound.attempt? hrow'
  rw [hbound.attempt_id, hattempt] at hfound
  exact receiveResult_replayed hcontract hfound hrecorded'

/-- As long as no result arrives for an attempt whose launch was refused, the results accepted are
those of attempts that ran, one for each; usage is counted as it arrives. -/
theorem results_of_launched (h : ((system L).traced (emit L)).Reach (fun p a => SparesRefused p.1 a) (s, log)) :
    Justified Receives log ∧ (log.filterMap Event.acceptedResult?).Nodup ∧
      (∀ a key row, s.tables.executions.get? key = some row →
        ∃ row', (s.step L a).tables.executions.get? key = some row' ∧
          BusinessStep (emit L s a) key row row') ∧
      Replays L s log ∧ Counted s.tables log ∧
      ∀ attempt_id, log.filterMap (Event.recordedOf attempt_id) =
        range' 1 (log.filterMap (Event.recordedOf attempt_id)).length := by
  have hs : ResultInv s log := resultInv_reach h
  refine ⟨hs.justified, hs.justified.nodup ?_, fun a key row hrow => step_business s a hrow,
    hs.launch.replays, hs.counted, recordedOf_filterMap hs.justified⟩
  intro before e k hj hk
  cases e with
  | received attempt_id event_id found control fence accepted =>
    cases accepted with
    | false => cases hk
    | true => cases hk; exact (hj rfl).1
  | _ => cases hk

namespace Sample

def resulted : List Action := launched ++ [.receiveResult "a1" 1 "e1" []]

theorem resulted_reach : ((system library).traced (emit library)).Reach
    (fun p a => SparesRefused p.1 a) (after resulted) := by
  have hrunning : ((after launched).1.tables.attempt? "a1").map (fun entry => entry.2.state) =
      some .running := by
    decide +kernel
  have hspares : SparesRefused (after launched).1 (.receiveResult "a1" 1 "e1" []) := by
    rintro key row hfound - - - - ⟨hfinished, -⟩
    rw [hfound, Option.map_some, hfinished] at hrunning
    cases hrunning
  refine .of_run ⟨rfl, rfl⟩ ?_
  exact ⟨trivial, trivial, trivial, trivial, trivial, trivial, trivial, trivial, hspares, trivial⟩

/-- The control is withdrawn between the spawn and the supervisor's transaction; its fence stays. -/
def refused : List Action := spawned ++ [.setControl "a1" ⟨1, "auth", false⟩, .advanceSupervisor 0 world,
    .advanceSupervisor 0 world, .receiveResult "a1" 1 "e1" []]

end Sample

open Sample (library after refused)

/-- The result of an attempt that was launched. -/
theorem results_of_launched_sample : ∃ (s : State) (log : List Event),
    log.filterMap Event.acceptedResult? = ["a1"] ∧
    Justified Receives log ∧ (log.filterMap Event.acceptedResult?).Nodup ∧
      (∀ a key row, s.tables.executions.get? key = some row →
        ∃ row', (s.step library a).tables.executions.get? key = some row' ∧
          BusinessStep (emit library s a) key row row') ∧
      Replays library s log ∧ Counted s.tables log ∧
      ∀ attempt_id, log.filterMap (Event.recordedOf attempt_id) =
        range' 1 (log.filterMap (Event.recordedOf attempt_id)).length := by
  have hresult : (after Sample.resulted).2.filterMap Event.acceptedResult? = ["a1"] := by
    decide +kernel
  exact ⟨_, _, hresult, results_of_launched Sample.resulted_reach⟩

/-- A result is accepted for an attempt whose tool no supervisor ever allowed. -/
theorem accepted_without_launch : ∃ s log, ((system library).traced (emit library)).Reach System.free (s, log) ∧
      log.filterMap Event.acceptedResult? = ["a1"] ∧ log.filterMap Event.authorised? = [] := by
  have hevents : (after refused).2.filterMap Event.acceptedResult? = ["a1"] ∧
      (after refused).2.filterMap Event.authorised? = [] := by
    decide +kernel
  exact ⟨_, _, Sample.after_reach refused, hevents⟩

end Karajan.Execution
