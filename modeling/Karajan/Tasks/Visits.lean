import Karajan.Tasks.Turns

/-!
# What transactions do

Each transaction on an operation leaves the store gone on, with no row under an
own key touched but the one it sends, and the operation turned. A transaction
that refuses, or is lost, leaves the store in the same agreement with the
operation as it was.
-/

namespace Karajan.Tasks

open Check
open Capacity (AdmissionRequest Clocked)
open Visit (Triple)

variable {lib : Library} (kind : Kind) (candidates : Candidates.Store) {s t m : Clocked}
  {op op' : Operation} {id : String} {request : AdmissionRequest}

-- Calls of the store

theorem send_goes (h : s.Sound) : Goes [key] s (s.send lib.capacity key c w).2 where
  sound := Clocked.send_sound h
  later := Clocked.send_later h
  rows key' _ hkey := Clocked.send_other s fun heq => hkey (by simp [heq])

theorem OtherCommand.send_goes (other : OtherCommand) (h : s.Sound) : Goes [] s (other.send lib s) where
  sound := Clocked.send_sound h
  later := Clocked.send_later h
  rows key hown _ := Clocked.send_other s fun heq => by
    rw [← heq, other.foreign] at hown
    cases hown

theorem others_goes (moment : Moment) (h : s.Sound) : Goes [] s (others lib moment s).2 := by
  show Goes [] s (moment.foldl (fun store other => other.send lib store) s)
  induction moment generalizing s with
  | nil => exact .refl h
  | cons other rest ih =>
    have hfirst : Goes [] s (other.send lib s) := other.send_goes h
    exact hfirst.trans (ih hfirst.sound)

theorem others_bind {next : Unit → Visiting α} {Q : α → Clocked → Prop}
    {E : Clocked → Prop} (h : s.Sound) (hnext : ∀ m, Goes [] s m → Triple (next ()) m Q E) :
    Triple (others lib moment >>= next) s Q E := by
  refine Triple.bind (Q := fun _ m => Goes [] s m) ?_ ?_
  · exact others_goes moment h
  · intro _ m hm
    exact hnext m hm

theorem readReceipt_triple (h : s.Sound) : Triple (readReceipt lib moment key c) s
      (fun found t => Goes [] s t ∧ (found = none → t.row key = none) ∧
        ∀ result, found = some result → ∃ row, t.row key = some row ∧ row.result = result) (Goes [] s) := by
  refine others_bind h fun m hm => ?_
  unfold Triple
  cases hrow : m.row key with
  | none =>
    simp only [Clocked.commandReceipt, hrow, Except.mapError]
    exact ⟨hm, by simp, by simp⟩
  | some row =>
    simp only [Clocked.commandReceipt, hrow]
    cases hsame : ensure (row.digest = lib.capacity.digest c) Capacity.CapacityError.idempotencyConflict with
    | error e => exact hm
    | ok =>
      refine ⟨hm, by simp, ?_⟩
      intro result hresult
      cases hresult
      exact ⟨row, hrow, rfl⟩

def FactsOf (store : Clocked) (k : String) (facts : Capacity.Facts) : Prop :=
  ∀ current, facts.admission = some current → ∃ item, store.item k = some item ∧
    current.stored_state = item.state ∧ current.expired_unsent = item.lapsed store.time

theorem routingFacts_triple (h : s.Sound) :
    Triple (routingFacts lib moment k reading) s (fun facts t => Goes [] s t ∧ FactsOf t k facts)
      (Goes [] s) := by
  refine others_bind h fun m hm => ?_
  unfold Triple
  cases reading with
  | none => exact hm
  | some reading =>
    refine ⟨⟨hm.sound.of_state rfl, ?_, fun key hown hkey => hm.rows key hown hkey⟩, ?_⟩
    · exact hm.later.trans (.of_state rfl (le_max_left _ _))
    · intro current hcurrent
      obtain ⟨item, hitem, rfl⟩ := Option.map_eq_some_iff.mp hcurrent
      exact ⟨item, (Option.filter_eq_some_iff.mp hitem).1, rfl, rfl⟩

theorem trySend_triple (h : s.Sound) : Triple (trySend lib moment key c w) s
      (fun answer t => ∃ m, Goes [] s m ∧ m.send lib.capacity key c w = (answer, t)) E := by
  refine others_bind h fun m hm => ?_
  exact ⟨m, hm, rfl⟩

-- Refreshing

theorem readActivation_triple (h : s.Sound) : Triple (readActivation lib moment op) s
      (fun read t => Goes [] s t ∧ (read = op ∨ ∃ intent receipt, op.intent? = some intent ∧
        read = op.answered intent receipt)) (Goes [] s) := by
  unfold readActivation
  split
  · exact .pure ⟨.refl h, .inl rfl⟩
  case h_2 intent hintent =>
    refine (readReceipt_triple h).bind ?_
    rintro found t ⟨hgoes, -, -⟩
    cases found with
    | none => exact .pure ⟨hgoes, .inl rfl⟩
    | some result =>
      refine .lift_bind hgoes fun receipt _ => ?_
      exact .pure ⟨hgoes, .inr ⟨intent, receipt, hintent, rfl⟩⟩

theorem answered_turn (hintent : op.intent? = some intent) (receipt : ActivationReceipt) :
    Turn lib kind candidates s op (op.answered intent receipt) :=
  .noted _ _ op.capacity_status fun intent' hintent' => by
    cases hintent'
    exact ⟨intent, hintent, rfl, rfl⟩

theorem withReceipt_turn (hintent : op.intent? = some intent) (receipt : ActivationReceipt) :
    Turn lib kind candidates s op (op.withReceipt intent receipt) :=
  .noted _ op.reason_codes op.capacity_status fun intent' hintent' => by
    cases hintent'
    exact ⟨intent, hintent, rfl, rfl⟩

theorem Operation.refreshes_live (h : op.refreshes = true) :
    op.execution = none ∧ (op.state = .reserved ∨ op.state = .reconciliationRequired) := by
  simp only [Operation.refreshes, Bool.and_eq_true, Bool.or_eq_true, decide_eq_true_eq,
    Option.isNone_iff_eq_none] at h
  refine ⟨h.1, h.2.imp_right fun hrecovering => ?_⟩
  simp only [Operation.recovering, Bool.and_eq_true, decide_eq_true_eq] at hrecovering
  exact hrecovering.1.2

theorem settle_turns (hop : Holds s op) (hexecution : op.execution = none)
    (hlive : op.state = .reserved ∨ op.state = .reconciliationRequired) (hk : op.receiptFor k)
    (hfacts : FactsOf s k facts) : Turns lib kind candidates s op (op.settle recovering facts) ∧
      (op.settle recovering facts).state ≠ .queued := by
  have hlive' : op.state.live = true := by rcases hlive with h | h <;> simp [h, OperationState.live]
  have hstays : op.state ≠ .queued := by rcases hlive with h | h <;> simp [h]
  have hlapsed : ∀ item, s.item k = some item → item.unheld s.time → ∀ k', Owns s op.id k' → s.Unheld k' := by
    intro item hitem hunheld k' howns
    cases (hop.owns hk).unique howns
    exact ⟨item, hitem, hunheld⟩
  unfold Operation.settle
  split
  · exact ⟨.single (.adrift _ _ hexecution hlive'), by simp [Operation.turned]⟩
  case h_2 current hcurrent =>
    obtain ⟨item, hitem, hstate, hexpired⟩ := hfacts current hcurrent
    rw [hstate, hexpired]
    split
    case isTrue hgone =>
      have hunheld : item.unheld s.time := by
        simp only [Bool.or_eq_true, decide_eq_true_eq] at hgone
        refine hgone.imp_left fun h => ?_
        rw [h]
        rfl
      exact ⟨.single (.lapsed _ _ _ (.inl rfl) hexecution hlive' (hlapsed item hitem hunheld)),
        by simp [Operation.turned]⟩
    · split
      case isTrue hreleased =>
        have hunheld : item.unheld s.time := .inl (by rw [hreleased]; rfl)
        exact ⟨.single (.lapsed _ _ _ (.inr rfl) hexecution hlive' (hlapsed item hitem hunheld)),
          by simp [Operation.turned]⟩
      · split
        case isTrue hactive =>
          simp only [Bool.and_eq_true, Bool.not_eq_true'] at hactive
          exact ⟨.single (.recovered _ _ hexecution hlive' hactive.2 hk), by simp [Operation.turned]⟩
        · split
          · exact ⟨.single (.adrift _ _ hexecution hlive'), by simp [Operation.turned]⟩
          · exact ⟨.refl, hstays⟩

theorem send_apart (hsend : m.send lib.capacity key c w = (answer, t)) (hne : key ≠ key') :
    t.row key' = m.row key' := by
  have hother := Clocked.send_other (L := lib.capacity) (c := c) (w := w) m hne
  rwa [hsend] at hother

theorem send_went (h : m.Sound) (hsend : m.send lib.capacity key c w = (answer, t)) : Goes [key] m t := by
  have hgoes : Goes [key] m (m.send lib.capacity key c w).2 := send_goes h
  rwa [hsend] at hgoes

theorem Rows.admission (h : Rows m id (some request)) (hsound : m.Sound) (hnone : m.row (admitKey id) = none)
    (hsend : m.send lib.capacity (admitKey id) (.admitAttempt request) w = (answer, t)) :
    Rows t id (some request) ∧
      ∀ result, answer = .ok result → ∃ decision, result = .decided decision ∧ Answered t id decision := by
  have hapart : ∀ start ∈ keyStarts, "task-admit:" ≠ start → t.row (start ++ id) = m.row (start ++ id) :=
    fun start hstart hne => send_apart hsend (start_ne (by decide) hstart hne)
  have hgiven := hapart "task-cancel:" (by decide) (by decide)
  have hreviewer := hapart "reviewer-activate:" (by decide) (by decide)
  have hactivation := hapart "go-task-activate:" (by decide) (by decide)
  -- Nothing was given up or activated before there was an admission.
  have hunowned : ∀ k, ¬ Owns m id k := by
    rintro k ⟨_, ⟨row, hrow, -⟩, -⟩
    cases hrow.symm.trans hnone
  have hidle : ∀ key, key = reviewerKey id ∨ key = activationKey id → ¬ Activated t key := by
    rintro key hkey ⟨row, activation, hrow, hresult⟩
    have hold : m.row key = some row := by
      rcases hkey with rfl | rfl
      · exact hreviewer.symm.trans hrow
      · exact hactivation.symm.trans hrow
    obtain ⟨k, _, howns, -⟩ := h.activated key hkey ⟨row, activation, hold, hresult⟩
    exact hunowned k howns
  have hrows : ∀ row, t.row (admitKey id) = some row →
      ∃ decision, row.result = .decided decision ∧ some request = some decision.request := by
    intro row hrow
    cases answer with
    | error e =>
      rw [Clocked.row, Clocked.send_error hsend] at hrow
      exact absurd (hrow.symm.trans hnone) (by simp)
    | ok result =>
      obtain ⟨row', hrow', rfl⟩ := Clocked.send_row hsend
      cases hrow.symm.trans hrow'
      rcases Clocked.send_ok hsend with ⟨old, hold, -⟩ | ⟨-, _, _, -, happly, -⟩
      · cases hold.symm.trans hnone
      · obtain ⟨decision, hdecided, hrequest⟩ := Capacity.apply_admit hsound.keyed happly
        exact ⟨decision, hdecided, by rw [hrequest]⟩
  refine ⟨⟨hrows, ?_, fun key hkey hact => absurd hact (hidle key hkey),
    fun hboth => hidle _ (.inl rfl) hboth.1⟩, ?_⟩
  · intro row hrow
    obtain ⟨k, howns, -⟩ := h.givenUp row (hgiven.symm.trans hrow)
    exact absurd howns (hunowned k)
  · rintro result rfl
    obtain ⟨row, hrow, rfl⟩ := Clocked.send_row hsend
    obtain ⟨decision, hdecided, -⟩ := hrows row hrow
    exact ⟨decision, hdecided, row, hrow, hdecided⟩

theorem Rows.cancel (h : Rows m id asked) (hsound : m.Sound) (howns : Owns m id k)
    (hsend : m.send lib.capacity (cancelKey id) (.cancelUnactivated ⟨k, evidence_ref⟩) w = (answer, t)) :
    Rows t id asked ∧ ∀ result, answer = .ok result → t.Unheld k := by
  have hgoes := send_went hsound hsend
  have hapart : ∀ start ∈ keyStarts, "task-cancel:" ≠ start → t.row (start ++ id) = m.row (start ++ id) :=
    fun start hstart hne => send_apart hsend (start_ne (by decide) hstart hne)
  have hadmitted := hapart "task-admit:" (by decide) (by decide)
  have hreviewer := hapart "reviewer-activate:" (by decide) (by decide)
  have hactivation := hapart "go-task-activate:" (by decide) (by decide)
  have hactivated : ∀ key, key = reviewerKey id ∨ key = activationKey id → Activated t key →
      Activated m key := by
    rintro key hkey ⟨row, activation, hrow, hresult⟩
    refine ⟨row, activation, ?_, hresult⟩
    rcases hkey with rfl | rfl
    · exact hreviewer.symm.trans hrow
    · exact hactivation.symm.trans hrow
  have hunheld : ∀ result, answer = .ok result → t.Unheld k := by
    rintro result rfl
    rcases Clocked.send_ok hsend with ⟨row, hrow, -, -⟩ | ⟨-, _, _, -, happly, hstate⟩
    · obtain ⟨k', howns', hunheld⟩ := h.givenUp row hrow
      cases howns.unique howns'
      exact hgoes.later.unheld k hunheld
    · have hfree := (Capacity.apply_cancel hsound.keyed happly t.time).2
      exact hfree.congr (by rw [hstate])
  refine ⟨⟨?_, ?_, ?_, ?_⟩, hunheld⟩
  · intro row hrow
    exact h.request row (hadmitted.symm.trans hrow)
  · intro row hrow
    cases answer with
    | error e =>
      rw [Clocked.row, Clocked.send_error hsend] at hrow
      obtain ⟨k', howns', hunheld'⟩ := h.givenUp row hrow
      exact ⟨k', howns'.later hgoes.later, hgoes.later.unheld k' hunheld'⟩
    | ok result => exact ⟨k, howns.later hgoes.later, hunheld result rfl⟩
  · intro key hkey hact
    obtain ⟨k', item, howns', hitem, hspent⟩ := h.activated key hkey (hactivated key hkey hact)
    obtain ⟨item', hitem', hspent'⟩ := hgoes.later.spent k' item hitem hspent
    exact ⟨k', item', howns'.later hgoes.later, hitem', hspent'⟩
  · rintro ⟨hfirst, hsecond⟩
    exact h.once ⟨hactivated _ (.inl rfl) hfirst, hactivated _ (.inr rfl) hsecond⟩

theorem Rows.activate (h : Rows m id asked) (hsound : m.Sound)
    (howns : Owns m id k) (hkey : key = reviewerKey id ∨ key = activationKey id)
    (hsend : m.send lib.capacity key (.activate k) w = (answer, t)) : Rows t id asked := by
  have hgoes := send_went hsound hsend
  obtain ⟨start, hstart, hfirst, hsecond, hstart_key⟩ : ∃ start ∈ keyStarts, "task-admit:" ≠ start ∧
      "task-cancel:" ≠ start ∧ key = start ++ id := by
    rcases hkey with rfl | rfl
    · exact ⟨"reviewer-activate:", by decide, by decide, by decide, rfl⟩
    · exact ⟨"go-task-activate:", by decide, by decide, by decide, rfl⟩
  have hadmitted : t.row (admitKey id) = m.row (admitKey id) :=
    send_apart hsend (hstart_key ▸ start_ne hstart (by decide) hfirst.symm)
  have hgiven : t.row (cancelKey id) = m.row (cancelKey id) :=
    send_apart hsend (hstart_key ▸ start_ne hstart (by decide) hsecond.symm)
  -- What is newly activated was reserved before.
  have hnew : Activated t key → Activated m key ∨
      (∃ item, m.item k = some item ∧ item.state = .reserved) ∧
        ∃ item, t.item k = some item ∧ item.state = .active := by
    rintro ⟨row, activation, hrow, hresult, hnone⟩
    cases answer with
    | error e =>
      rw [Clocked.row, Clocked.send_error hsend] at hrow
      exact .inl ⟨row, activation, hrow, hresult, hnone⟩
    | ok result =>
      obtain ⟨row', hrow', rfl⟩ := Clocked.send_row hsend
      cases hrow.symm.trans hrow'
      rcases Clocked.send_ok hsend with ⟨old, hold, hsame, -⟩ | ⟨-, _, tables, -, happly, hstate⟩
      · exact .inl ⟨old, activation, hold, hsame.trans hresult, hnone⟩
      · obtain ⟨activation', heq, hturns⟩ := Capacity.apply_activate hsound.keyed happly
        cases hresult.symm.trans heq
        obtain ⟨hbefore, item, hitem, hactive⟩ := hturns hnone
        exact .inr ⟨hbefore, item, by rw [Clocked.item_eq hstate]; exact hitem, hactive⟩
  have hold : ∀ key', key' ≠ key → Activated t key' → Activated m key' := by
    rintro key' hne ⟨row, activation, hrow, hresult⟩
    exact ⟨row, activation, (send_apart hsend hne.symm).symm.trans hrow, hresult⟩
  have hspent : ∀ key', key' = reviewerKey id ∨ key' = activationKey id → Activated m key' →
      ∀ item, m.item k = some item → item.state ≠ .reserved := by
    intro key' hkey' hact item hitem
    obtain ⟨k', item', howns', hitem', hstate⟩ := h.activated key' hkey' hact
    cases howns.unique howns'
    cases hitem.symm.trans hitem'
    exact hstate
  have hlater : ∀ key', key' = reviewerKey id ∨ key' = activationKey id → Activated m key' →
      ∃ k item, Owns t id k ∧ t.item k = some item ∧ item.state ≠ .reserved := by
    intro key' hkey' hact
    obtain ⟨k', item, howns', hitem, hstate⟩ := h.activated key' hkey' hact
    obtain ⟨item', hitem', hstate'⟩ := hgoes.later.spent k' item hitem hstate
    exact ⟨k', item', howns'.later hgoes.later, hitem', hstate'⟩
  -- The other key was activated before, so this one is not activated now.
  have hclash : ∀ key', key' = reviewerKey id ∨ key' = activationKey id → key' ≠ key →
      Activated t key' → Activated t key → Activated m key := by
    intro key' hkey' hne hother hact
    rcases hnew hact with hbefore | ⟨⟨item, hitem, hreserved⟩, -⟩
    · exact hbefore
    · exact absurd hreserved (hspent key' hkey' (hold key' hne hother) item hitem)
  have hdistinct : reviewerKey id ≠ activationKey id := start_ne (by decide) (by decide) (by decide)
  refine ⟨?_, ?_, ?_, ?_⟩
  · intro row hrow
    exact h.request row (hadmitted.symm.trans hrow)
  · intro row hrow
    obtain ⟨k', howns', hunheld⟩ := h.givenUp row (hgiven.symm.trans hrow)
    exact ⟨k', howns'.later hgoes.later, hgoes.later.unheld k' hunheld⟩
  · intro key' hkey' hact
    by_cases heq : key' = key
    · subst heq
      rcases hnew hact with hbefore | ⟨-, item, hitem, hactive⟩
      · exact hlater key' hkey' hbefore
      · exact ⟨k, item, howns.later hgoes.later, hitem, by simp [hactive]⟩
    · exact hlater key' hkey' (hold key' heq hact)
  · rintro ⟨hfirst, hsecond⟩
    rcases hkey with rfl | rfl
    · exact h.once ⟨hclash _ (.inr rfl) hdistinct.symm hsecond hfirst, hold _ hdistinct.symm hsecond⟩
    · exact h.once ⟨hold _ hdistinct hfirst, hclash _ (.inl rfl) hdistinct hfirst hsecond⟩

theorem send_refused (h : m.Sound) (hsend : m.send lib.capacity key c w = (.error e, t)) : Goes [] m t := by
  have hstate : t.state = m.state := Clocked.send_error hsend
  have htime : m.time ≤ (m.send lib.capacity key c w).2.time := Clocked.send_time m
  rw [hsend] at htime
  refine ⟨h.of_state hstate, .of_state hstate htime, fun key' _ _ => ?_⟩
  rw [Clocked.row, Clocked.row, hstate]

/-- What a transaction on an operation leaves in the store, whether it is saved or not. -/
structure Left (keys : List String) (s : Clocked) (op : Operation) (t : Clocked) : Prop where
  goes : Goes keys s t
  holds : Holds t op
  asked : op.state = .queued ∨ t.row (admitKey op.id) = s.row (admitKey op.id)

theorem Left.calm (hop : Holds s op) (h : Goes [] s t) : Left keys s op t where
  goes := h.widen
  holds := hop.calm h
  asked := .inr (h.rows _ (keysOf_own admitKey_mem) (by simp))

theorem Left.then (h : Left keys s op t) (hgoes : Goes [] t u) : Left keys s op u where
  goes := h.goes.trans hgoes.widen
  holds := h.holds.calm hgoes
  asked := h.asked.imp_right fun hsame =>
    (hgoes.rows _ (keysOf_own admitKey_mem) (by simp)).trans hsame

theorem intended_ok (h : intended op k = .ok intent) (hk : op.receiptFor k) :
    Turn lib kind candidates s op { op with reviewer_activation := .intended intent } := by
  unfold intended at h
  split at h
  case h_1 hintent =>
    cases h
    refine .noted _ op.reason_codes op.capacity_status fun intent' hintent' => ?_
    cases hintent'
    exact ⟨intent, by rw [Operation.intent?, hintent]; rfl, rfl, rfl⟩
  · cases h
    exact .intended k hk
  · cases h

variable (h : s.Sound) (hop : Holds s op)
include h hop

theorem refresh_triple : Triple (refresh lib w op) s
      (fun op' t => Goes [] s t ∧ Turns lib kind candidates t op op' ∧ (op'.state = .queued → op' = op))
      (Goes [] s) := by
  unfold refresh
  split
  case isFalse => exact .pure ⟨.refl h, .refl, fun _ => rfl⟩
  case isTrue hrefreshes =>
    obtain ⟨hexecution, hlive⟩ := op.refreshes_live hrefreshes
    refine (readActivation_triple h).bind ?_
    rintro read t ⟨hgoes, hread⟩
    have hturns : Turns lib kind candidates t op read := by
      rcases hread with rfl | ⟨intent, receipt, hintent, rfl⟩
      · exact .refl
      · exact .single (answered_turn kind candidates hintent receipt)
    have hread_execution : read.execution = none := by
      rcases hread with rfl | ⟨intent, receipt, -, rfl⟩ <;> exact hexecution
    have hread_live : read.state = .reserved ∨ read.state = .reconciliationRequired := by
      rcases hread with rfl | ⟨intent, receipt, -, rfl⟩ <;> exact hlive
    refine .lift_bind hgoes fun receipt hreceipt => ?_
    refine .lift_bind hgoes fun admission_id hadmission => ?_
    have hk : read.receiptFor admission_id := ⟨receipt, need_ok.mp hreceipt, need_ok.mp hadmission⟩
    refine ((routingFacts_triple hgoes.sound).mono (fun _ _ hq => hq) fun u hu => hgoes.trans hu).bind ?_
    rintro facts u ⟨hgoes', hfacts⟩
    have hread_holds : Holds u read := (hturns.holds (hop.calm hgoes)).calm hgoes'
    have hsettled : Turns lib kind candidates u read (read.settle op.recovering facts) ∧
        (read.settle op.recovering facts).state ≠ .queued :=
      settle_turns kind candidates hread_holds hread_execution hread_live hk hfacts
    obtain ⟨hsettles, hstays⟩ := hsettled
    exact .pure ⟨hgoes.trans hgoes', (hturns.goes hgoes').trans hsettles, fun hqueued => absurd hqueued hstays⟩

-- Own commands

-- Transactions

theorem admission_triple (hqueued : op.state = .queued) (hrequest : op.request = some request)
    (hnone : s.row (admitKey op.id) = none) : Triple (admission lib w operations principal op request) s
      (fun r t => Left [admitKey op.id] s op t ∧
        ((r.2 = none ∧ t.row (admitKey op.id) = none ∧
          ∃ revalidation reasons, r.1 = { op with revalidation }.blocked reasons) ∨
        ∃ decision revalidation, r.2 = some decision ∧ Answered t op.id decision ∧
          r.1 = { op with revalidation })) (Left [admitKey op.id] s op) := by
  have hstill : ∀ t, Goes [] s t → t.row (admitKey op.id) = none := fun t ht =>
    (ht.rows _ (keysOf_own admitKey_mem) (by simp)).trans hnone
  have hsame : Left [admitKey op.id] s op s := .calm hop (.refl h)
  unfold admission
  refine .lift_bind hsame fun run _ => .lift_bind hsame fun worker _ => .lift_bind hsame fun current _ => ?_
  refine .lift_bind hsame fun refused _ => ?_
  cases refused with
  | some reasons => exact .pure ⟨hsame, .inl ⟨rfl, hnone, some current, reasons, rfl⟩⟩
  | none =>
    refine (trySend_triple h).bind ?_
    rintro answer t ⟨m, hm, hsend⟩
    have hrows : Rows m op.id (some request) := hrequest ▸ (hop.calm hm).rows
    obtain ⟨hrows', hanswered⟩ := hrows.admission hm.sound (hstill m hm) hsend
    have hwent := send_went hm.sound hsend
    have hleft : Left [admitKey op.id] s op t := by
      refine ⟨hm.widen.trans hwent, ?_, .inl hqueued⟩
      refine (hop.calm hm).keep hwent.later (hrequest ▸ hrows') fun hended => ?_
      simp [hqueued, OperationState.ended] at hended
    cases answer with
    | ok result =>
      refine .lift_bind hleft fun decision hdecision => ?_
      obtain ⟨decision', rfl, hd⟩ := hanswered result rfl
      cases hdecision
      exact .pure ⟨hleft, .inr ⟨decision, some current, rfl, hd, rfl⟩⟩
    | error e =>
      have hcalm := hm.trans (send_refused hm.sound hsend)
      show Triple (if _ then _ else _) t _ _
      split
      · exact .pure ⟨hleft, .inl ⟨rfl, hstill t hcalm, some current, _, rfl⟩⟩
      · exact .lift (by simp) hleft

theorem advance_triple : Triple (advance lib w operations principal op) s
      (fun op' t => Left [admitKey op.id] s op t ∧ Turns lib kind candidates t op op')
      (Left [admitKey op.id] s op) := by
  unfold advance
  refine ((refresh_triple kind candidates h hop).mono (fun _ _ hq => hq)
    fun t ht => .calm hop ht).bind ?_
  rintro op₁ m ⟨hm, hturns, hqueued⟩
  have hleft : Left [admitKey op.id] s op m := .calm hop hm
  split
  · exact .pure ⟨hleft, hturns⟩
  case isFalse hgate =>
    simp only [ne_eq, Bool.or_eq_true, decide_eq_true_eq, not_or, not_not, Bool.not_eq_true] at hgate
    obtain ⟨hstate, hcancel⟩ := hgate
    cases hqueued hstate
    refine .lift_bind hleft fun request hrequest => ?_
    have hrequest := need_ok.mp hrequest
    -- A decision that is found, or comes, is followed by one more refresh.
    have hfinish : ∀ (decision : Capacity.Decision) (revalidation : Option Assessment) u,
        Left [admitKey op.id] s op u → Answered u op.id decision →
        Triple (refresh lib w.admitted ({ op with revalidation }.admitted decision)) u
          (fun op' t => Left [admitKey op.id] s op t ∧ Turns lib kind candidates t op op')
          (Left [admitKey op.id] s op) := by
      intro decision revalidation u hu hanswered
      have hturn : Turn lib kind candidates u op ({ op with revalidation }.admitted decision) :=
        .answered decision revalidation hstate hcancel hanswered
      refine (refresh_triple kind candidates hu.goes.sound (hturn.holds hu.holds)).mono ?_ ?_
      · rintro op' t ⟨ht, hturns', -⟩
        exact ⟨hu.then ht, .head (hturn.goes ht) hturns'⟩
      · exact fun t ht => hu.then ht
    refine ((readReceipt_triple hm.sound).mono (fun _ _ hq => hq) fun t ht => hleft.then ht).bind ?_
    rintro found u ⟨hu, hnone, hsome⟩
    have hleft' := hleft.then hu
    cases found with
    | some result =>
      refine .lift_bind hleft' fun decision hdecision => ?_
      obtain ⟨row, hrow, rfl⟩ := hsome result rfl
      refine hfinish decision op.revalidation u hleft' ⟨row, hrow, ?_⟩
      cases hresult : row.result <;> simp [hresult, Tasks.decision] at hdecision ⊢
      exact hdecision
    | none =>
      refine ((admission_triple hu.sound hleft'.holds hstate hrequest (hnone rfl)).mono
        (fun _ _ hq => hq) fun t ht => ?_).bind ?_
      · exact ⟨hleft'.goes.trans ht.goes, ht.holds, .inl hstate⟩
      · rintro ⟨op₂, answer⟩ t ⟨ht, hcases⟩
        have hleft₂ : Left [admitKey op.id] s op t := ⟨hleft'.goes.trans ht.goes, ht.holds, .inl hstate⟩
        rcases hcases with ⟨rfl, hnone', revalidation, reasons, rfl⟩ |
          ⟨decision, revalidation, rfl, hanswered, rfl⟩
        · exact .pure ⟨hleft₂, .single (.blocked revalidation reasons hstate hcancel hnone')⟩
        · exact hfinish decision revalidation t hleft₂ hanswered

theorem intendActivation_triple : Triple (intendActivation lib w operations op) s
      (fun r t => Goes [] s t ∧ Turns lib kind candidates t op r.1 ∧
        ∀ intent, r.2 = some intent → r.1.intent? = some intent) (Goes [] s) := by
  unfold intendActivation
  refine .lift_bind (.refl h) fun _ _ => ?_
  refine (refresh_triple kind candidates h hop).bind ?_
  rintro op₁ m ⟨hm, hturns, -⟩
  refine .lift_bind hm fun _ _ => .lift_bind hm fun _ _ => ?_
  refine .lift_bind hm fun receipt hreceipt => .lift_bind hm fun k hk => ?_
  refine .lift_bind hm fun intent hintent => ?_
  have hreceipt : op₁.receiptFor k := ⟨receipt, need_ok.mp hreceipt, need_ok.mp hk⟩
  refine ((readReceipt_triple hm.sound).mono (fun _ _ hq => hq) fun t ht => hm.trans ht).bind ?_
  rintro found t ⟨ht, -, -⟩
  have hturns := hturns.goes ht
  have hnext : Turn lib kind candidates t op₁ { op₁ with reviewer_activation := .intended intent } :=
    intended_ok kind candidates hintent hreceipt
  cases found with
  | none =>
    refine .pure ⟨hm.trans ht, hturns.tail hnext, ?_⟩
    intro intent' hintent'
    cases hintent'
    rfl
  | some result =>
    refine .lift_bind (hm.trans ht) fun answer _ => ?_
    have hanswer : Turn lib kind candidates t { op₁ with reviewer_activation := .intended intent }
        (op₁.withReceipt intent answer) := withReceipt_turn kind candidates rfl answer
    have hturns₂ : Turns lib kind candidates t op (op₁.withReceipt intent answer) :=
      (hturns.tail hnext).tail hanswer
    have hop₂ := hturns₂.holds ((hop.calm hm).calm ht)
    refine ((refresh_triple kind candidates ht.sound hop₂).mono (fun _ _ hq => hq)
      fun u hu => (hm.trans ht).trans hu).bind ?_
    rintro op₂ u ⟨hu, hlast, -⟩
    exact .pure ⟨(hm.trans ht).trans hu, (hturns₂.goes hu).trans hlast, by simp⟩

theorem storeActivation_triple : Triple (storeActivation lib w intent answer op) s
      (fun op' t => Goes [] s t ∧ Turns lib kind candidates t op op') (Goes [] s) := by
  unfold storeActivation
  refine .lift_bind (.refl h) fun _ hintent => ?_
  have hintent : op.intent? = some intent := by simpa using ensure_ok.mp hintent
  have hturn : Turn lib kind candidates s op (op.withReceipt intent answer) := withReceipt_turn kind candidates hintent answer
  refine (refresh_triple kind candidates h (hturn.holds hop)).mono ?_ fun _ ht => ht
  rintro op' t ⟨ht, hturns, -⟩
  exact ⟨ht, .head (hturn.goes ht) hturns⟩

theorem sendActivation_triple (howns : Owns s op.id k)
    (hkey : key = reviewerKey op.id ∨ key = activationKey op.id) :
    Triple (send lib moment key (.activate k) w) s (fun _ t => Left [key] s op t) (Left [key] s op) := by
  unfold send
  refine (trySend_triple h).bind ?_
  rintro answer t ⟨m, hm, hsend⟩
  have hwent := send_went hm.sound hsend
  have hne : key ≠ admitKey op.id := by
    rcases hkey with rfl | rfl <;> exact start_ne (by decide) (by decide) (by decide)
  have hsame : t.row (admitKey op.id) = m.row (admitKey op.id) := send_apart hsend hne
  have hrows := (hop.calm hm).rows.activate hm.sound (howns.later hm.later) hkey hsend
  have hleft : Left [key] s op t := ⟨hm.widen.trans hwent, (hop.calm hm).keep hwent.later hrows fun _ => hsame,
      .inr (hsame.trans (hm.rows _ (keysOf_own admitKey_mem) (by simp)))⟩
  exact .lift (fun _ _ => hleft) hleft

theorem admittedRow_triple : Triple (admittedRow lib moment op) s
      (fun found t => Goes [] s t ∧ (found = none → ∀ k, ¬ Owns t op.id k) ∧
        ∀ decision, found = some decision → Answered t op.id decision) (Goes [] s) := by
  unfold admittedRow
  split
  case h_1 hnone =>
    refine .pure ⟨.refl h, ?_, by simp⟩
    rintro - k ⟨_, ⟨row, hrow, -⟩, -⟩
    obtain ⟨_, -, hrequest⟩ := hop.rows.request row hrow
    cases hnone.symm.trans hrequest
  case h_2 request hrequest =>
    refine (readReceipt_triple h).bind ?_
    rintro found t ⟨ht, hnone, hsome⟩
    cases found with
    | none =>
      refine .pure ⟨ht, ?_, by simp⟩
      rintro - k ⟨_, ⟨row, hrow, -⟩, -⟩
      cases (hnone rfl).symm.trans hrow
    | some result =>
      refine .lift_bind ht fun decision hdecision => ?_
      obtain ⟨row, hrow, rfl⟩ := hsome result rfl
      refine .pure ⟨ht, by simp, ?_⟩
      intro decision' heq
      cases heq
      obtain ⟨decided, hdecided, -⟩ := (hop.calm ht).rows.request row hrow
      rw [hdecided] at hdecision
      cases hdecision
      exact ⟨row, hrow, hdecided⟩

theorem giveUp_triple {decision : Capacity.Decision}
    (hstate : op.state ≠ .cancelled) (hcancel : op.cancel_requested = true) (hexecution : op.execution = none)
    (hanswered : Answered s op.id decision) (hk : decision.admission_id = some k) :
    Triple (giveUp lib w { op with capacity_receipt := some decision } k) s
      (fun op' t => Left [cancelKey op.id] s op t ∧ Turns lib .cancel candidates t op op')
      (Left [cancelKey op.id] s op) := by
  have hreceipt : ∀ t, s.Later t → ∀ other, some decision = some other → Answered t op.id other := by
    intro t ht other heq
    cases heq
    exact hanswered.later ht
  have howns : ∀ t, s.Later t → Owns t op.id k := fun t ht => ⟨decision, hanswered.later ht, hk⟩
  unfold giveUp
  refine ((readReceipt_triple h).mono (fun _ _ hq => hq) fun t ht => .calm hop ht).bind ?_
  rintro found t ⟨ht, hnone, hsome⟩
  have hleft : Left [cancelKey op.id] s op t := .calm hop ht
  cases found with
  | some result =>
    refine .lift_bind hleft fun state _ => ?_
    obtain ⟨row, hrow, -⟩ := hsome result rfl
    obtain ⟨k₀, howns₀, hunheld⟩ := (hop.calm ht).rows.givenUp row hrow
    refine .pure ⟨hleft, .single (.cancelled (some decision) (some state) hcancel hexecution
      (hreceipt t ht.later) ?_)⟩
    intro k' howns'
    cases howns₀.unique howns'
    exact hunheld
  | none =>
    refine (trySend_triple ht.sound).bind ?_
    rintro answer u ⟨m, hm, hsend⟩
    have hwent := send_went hm.sound hsend
    have hlater : s.Later u := (ht.later.trans hm.later).trans hwent.later
    have hsame : u.row (admitKey op.id) = m.row (admitKey op.id) :=
      send_apart hsend (start_ne (by decide) (by decide) (by decide))
    obtain ⟨hrows, hunheld⟩ := ((hop.calm ht).calm hm).rows.cancel hm.sound
      (howns m (ht.later.trans hm.later)) hsend
    have hleft' : Left [cancelKey op.id] s op u :=
      ⟨(ht.trans hm).widen.trans hwent, ((hop.calm ht).calm hm).keep hwent.later hrows fun _ => hsame,
        .inr (hsame.trans ((ht.trans hm).rows _ (keysOf_own admitKey_mem) (by simp)))⟩
    cases answer with
    | ok result =>
      refine .lift_bind hleft' fun state _ => ?_
      refine .pure ⟨hleft', .single (.cancelled (some decision) (some state) hcancel hexecution
        (hreceipt u hlater) ?_)⟩
      intro k' howns'
      cases (howns u hlater).unique howns'
      exact hunheld result rfl
    | error e =>
      exact .pure ⟨hleft', .single (.cancelRefused decision _ rfl hstate hcancel hexecution (hanswered.later hlater))⟩

theorem finishCancel_triple {w : CancelWorld}
    (hcancel : op.cancel_requested = true) (hexecution : op.execution = none) : Triple (finishCancel lib w op) s
      (fun op' t => Left [cancelKey op.id] s op t ∧ Turns lib .cancel candidates t op op')
      (Left [cancelKey op.id] s op) := by
  unfold finishCancel
  split
  · exact .pure ⟨.calm hop (.refl h), .refl⟩
  case isFalse hstate =>
    refine ((admittedRow_triple h hop).mono (fun _ _ hq => hq) fun t ht => .calm hop ht).bind ?_
    rintro found t ⟨ht, hnone, hsome⟩
    have hleft : Left [cancelKey op.id] s op t := .calm hop ht
    have hfree : (∀ k, ¬ Owns t op.id k) → Turn lib .cancel candidates t op op.cancelled := fun hunowned =>
      .cancelled op.capacity_receipt op.cancellation_receipt hcancel hexecution
        (hop.calm ht).receipt fun k howns => absurd howns (hunowned k)
    cases found with
    | none => exact .pure ⟨hleft, .single (hfree (hnone rfl))⟩
    | some decision =>
      have hanswered := hsome decision rfl
      cases hk : decision.admission_id with
      | none =>
        simp only [hk]
        refine .pure ⟨hleft, .single (hfree ?_)⟩
        rintro k ⟨other, hother, hk'⟩
        cases hanswered.unique hother
        cases hk'.symm.trans hk
      | some k =>
        simp only [hk]
        refine (giveUp_triple candidates ht.sound (hop.calm ht) hstate hcancel hexecution hanswered hk).mono ?_ ?_
        · rintro op' u ⟨hu, hturns⟩
          exact ⟨⟨ht.widen.trans hu.goes, hu.holds, hu.asked.imp_right fun hsame => hsame.trans
            (ht.rows _ (keysOf_own admitKey_mem) (by simp))⟩, hturns⟩
        · intro u hu
          exact ⟨ht.widen.trans hu.goes, hu.holds, hu.asked.imp_right fun hsame => hsame.trans
            (ht.rows _ (keysOf_own admitKey_mem) (by simp))⟩

theorem prepareWorkspace_triple : Triple (prepareWorkspace lib w principal op) s
      (fun op' t => Goes [] s t ∧ Turns lib kind candidates t op op') (Goes [] s) := by
  unfold prepareWorkspace
  refine (refresh_triple kind candidates h hop).bind ?_
  rintro op₁ t ⟨ht, hturns, -⟩
  refine .lift_bind ht fun _ _ => .lift_bind ht fun run _ => .lift_bind ht fun approved _ => ?_
  show Triple (if op₁.workspace.isSome then pure op₁ else _) t _ _
  split
  · exact .pure ⟨ht, hturns⟩
  · refine .lift_bind ht fun captured _ => .lift_bind ht fun input _ => ?_
    exact .pure ⟨ht, hturns.tail (.workspace _)⟩

end Karajan.Tasks
