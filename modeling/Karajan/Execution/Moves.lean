import Karajan.Execution.Host

/-!
# What a step does to the tables

Whoever makes it, a step keeps what a row binds together, never takes back a
cancellation or an activation, and never lowers the fence of a control. Only
the transaction of a supervisor lets a row begin to run.
-/

namespace Karajan.Execution

open List Dict Check
variable {t t' : Tables} {row row' : Row}

-- Rows

structure Row.Sound (row : Row) : Prop where
  attempt_id : row.attempt_id = row.manifest.id
  activation : row.activation.isSome = row.activation_digest.isSome
  unaccepted : row.state = .prepared → row.activation_digest = none

def Row.Ran (row : Row) : Prop := row.state = .running ∨ row.exit_code.isSome

structure Row.Moves (row row' : Row) : Prop where
  attempt_id : row'.attempt_id = row.attempt_id
  manifest : row'.manifest = row.manifest
  spec : row'.spec = row.spec
  activation : row.activation_digest.isSome →
    row'.activation_digest = row.activation_digest ∧ row'.activation = row.activation
  sound : row.Sound → row'.Sound
  cancelled : row.cancelled = true → row'.cancelled = true
  withdrawn : row.cancelled = true → row.activation_digest = none → row'.activation_digest = none
  begun : row.state ≠ .prepared → row'.state ≠ .prepared
  business : row.business_status ≠ .pending → row'.business_status = row.business_status

namespace Row.Moves

theorem refl (row : Row) : row.Moves row where
  attempt_id := rfl
  manifest := rfl
  spec := rfl
  activation _ := ⟨rfl, rfl⟩
  sound h := h
  cancelled h := h
  withdrawn _ h := h
  begun h := h
  business _ := rfl

end Row.Moves

theorem Row.moves_state (hattempt : row'.attempt_id = row.attempt_id)
    (hmanifest : row'.manifest = row.manifest) (hspec : row'.spec = row.spec)
    (hactivation : row'.activation = row.activation) (hdigest : row'.activation_digest = row.activation_digest)
    (hcancelled : row.cancelled = true → row'.cancelled = true)
    (hstate : row.state ≠ .prepared → row'.state ≠ .prepared)
    (hbusiness : row.business_status ≠ .pending → row'.business_status = row.business_status) :
    row.Moves row' where
  attempt_id := hattempt
  manifest := hmanifest
  spec := hspec
  activation _ := ⟨hdigest, hactivation⟩
  sound h := by
    refine ⟨?_, ?_, fun hprepared => hdigest.trans (h.unaccepted ?_)⟩
    · rw [hattempt, hmanifest]
      exact h.attempt_id
    · rw [hactivation, hdigest]
      exact h.activation
    · exact not_not.mp fun hn => hstate hn hprepared
  cancelled := hcancelled
  withdrawn _ hn := hdigest.trans hn
  begun := hstate
  business := hbusiness

theorem Row.accept_moves {activation : Activation} (hnone : row.activation_digest = none) (hlive : row.cancelled = false) :
    row.Moves (row.accept L activation) where
  attempt_id := rfl
  manifest := rfl
  spec := rfl
  activation h := by simp [hnone] at h
  sound h := ⟨h.attempt_id, rfl, fun hprepared => by simp [Row.accept] at hprepared⟩
  cancelled h := h
  withdrawn h := by simp [hlive] at h
  begun _ := by simp [Row.accept]
  business _ := rfl

theorem Row.activate_moves {allowed : Bool} : row.Moves (row.activate allowed) := by
  refine moves_state rfl rfl rfl rfl rfl id ?_ fun _ => rfl
  cases allowed <;> simp [Row.activate]

theorem Row.acknowledge_moves : row.Moves (row.acknowledge identity) :=
  moves_state rfl rfl rfl rfl rfl id id fun _ => rfl

theorem Row.authorise_moves : row.Moves (row.authorise identity may_launch) := by
  unfold Row.authorise
  split
  · refine moves_state rfl rfl rfl rfl rfl id ?_ fun _ => rfl
    cases may_launch <;> simp
  · exact .refl row

theorem Row.register_moves {runner identity : ProcessIdentity} : row.Moves (row.register runner identity) := by
  unfold Row.register
  split
  · exact moves_state rfl rfl rfl rfl rfl id id fun _ => rfl
  · exact .refl row

theorem Row.finish_moves {exit_code : Int} : row.Moves (row.finish exit_code) :=
  moves_state rfl rfl rfl rfl rfl id (fun _ => by simp [Row.finish]) fun _ => rfl

theorem Row.cancel_moves : row.Moves row.cancel := by
  refine moves_state rfl rfl rfl rfl rfl (fun _ => rfl) ?_ ?_
  · intro hstate
    simp [Row.cancel, hstate]
  · intro hbusiness
    simp [Row.cancel, hbusiness]

-- Tables

def OneKeyEach (t : Tables) : Prop :=
  ∀ key key' row row', t.executions.get? key = some row → t.executions.get? key' = some row' →
    row.attempt_id = row'.attempt_id → key = key'

structure Tables.Sound (t : Tables) : Prop where
  rows : ∀ key row, t.executions.get? key = some row → row.Sound
  one_key : OneKeyEach t

def Control.Rises (control control' : Control) : Prop := control.fence ≤ control'.fence

open Control (Rises)

/-- What a step may make of the tables; `may` holds of the start keys that begin to run. -/
structure Tables.Moves (may : String → Prop) (t t' : Tables) : Prop where
  rows : t.executions.Grows Row.Moves t'.executions
  controls : t.controls.Grows Rises t'.controls
  sound : t.Sound → t'.Sound
  ran : ∀ key row', t'.executions.get? key = some row' → row'.Ran →
    may key ∨ ∃ row, t.executions.get? key = some row ∧ row.Ran

theorem Control.Rises.refl (control : Control) : control.Rises control := Int.le_refl _

theorem Tables.Sound.empty : Tables.empty.Sound where
  rows key row h := by cases h
  one_key key key' row row' h := by cases h

theorem attempt?_some (h : t.attempt? attempt_id = some (start_key, row)) :
    t.executions.get? start_key = some row ∧ row.attempt_id = attempt_id := by
  unfold Tables.attempt? at h
  exact ⟨get?_eq_some.mpr (mem_of_find?_eq_some h),
    by simpa using find?_some h⟩

theorem attempt?_none (h : t.attempt? attempt_id = none) (hrow : t.executions.get? key = some row) :
    row.attempt_id ≠ attempt_id := by
  have hall := find?_eq_none.mp h (key, row) (get?_eq_some.mp hrow)
  simpa using hall

theorem Tables.Sound.attempt? (h : t.Sound) (hrow : t.executions.get? start_key = some row) :
    t.attempt? row.attempt_id = some (start_key, row) := by
  cases hfound : t.attempt? row.attempt_id with
  | none => exact absurd rfl (attempt?_none hfound hrow)
  | some entry =>
    obtain ⟨hrow', hattempt⟩ := attempt?_some hfound
    cases h.one_key _ _ _ _ hrow' hrow hattempt
    rw [hrow] at hrow'
    cases hrow'
    rfl

namespace Tables.Moves

theorem refl (t : Tables) : t.Moves may t where
  rows := .refl Row.Moves.refl _
  controls := .refl Rises.refl _
  sound h := h
  ran _ row h hran := .inr ⟨row, h, hran⟩

theorem get?_update : (t.update start_key f).executions.get? key =
    if key = start_key then (t.executions.get? start_key).map f else t.executions.get? key := by
  unfold Tables.update
  rw [get?_modify]
  split
  case isTrue hkey => rw [hkey]
  · rfl

theorem update (hf : ∀ row, t.executions.get? start_key = some row → row.Moves (f row))
    (hran : ∀ row, t.executions.get? start_key = some row → (f row).Ran → may start_key ∨ row.Ran)
    (hrows : t'.executions = (t.update start_key f).executions)
    (hcontrols : t.controls.Grows Rises t'.controls) : t.Moves may t' where
  rows := by
    rw [hrows]
    exact .modify Row.Moves.refl hf
  controls := hcontrols
  sound h := by
    have hback : ∀ key row', t'.executions.get? key = some row' →
        ∃ row, t.executions.get? key = some row ∧ row.Moves row' := by
      intro key row' hrow'
      rw [hrows, get?_update] at hrow'
      split at hrow'
      case isTrue hkey =>
        subst hkey
        obtain ⟨row, hrow, rfl⟩ := Option.map_eq_some_iff.mp hrow'
        exact ⟨row, hrow, hf row hrow⟩
      · exact ⟨row', hrow', .refl row'⟩
    constructor
    · intro key row' hrow'
      obtain ⟨row, hrow, hm⟩ := hback key row' hrow'
      exact hm.sound (h.rows key row hrow)
    · intro key key' row row' hrow hrow' hsame
      obtain ⟨old, hold, hm⟩ := hback key row hrow
      obtain ⟨old', hold', hm'⟩ := hback key' row' hrow'
      rw [hm.attempt_id, hm'.attempt_id] at hsame
      exact h.one_key _ _ _ _ hold hold' hsame
  ran key row' hrow' hran' := by
    rw [hrows, get?_update] at hrow'
    split at hrow'
    case isTrue hkey =>
      subst hkey
      obtain ⟨row, hrow, rfl⟩ := Option.map_eq_some_iff.mp hrow'
      rcases hran row hrow hran' with hmay | hold
      · exact .inl hmay
      · exact .inr ⟨row, hrow, hold⟩
    · exact .inr ⟨row', hrow', hran'⟩

theorem of_controls (hrows : t'.executions = t.executions)
    (hcontrols : t.controls.Grows Rises t'.controls) : t.Moves may t' where
  rows := hrows ▸ .refl Row.Moves.refl _
  controls := hcontrols
  sound h := ⟨by rw [hrows]; exact h.rows, by unfold OneKeyEach; rw [hrows]; exact h.one_key⟩
  ran key row h hran := .inr ⟨row, hrows ▸ h, hran⟩

theorem of_eq (hrows : t'.executions = t.executions) (hcontrols : t'.controls = t.controls) :
    t.Moves may t' := .of_controls hrows (hcontrols ▸ .refl Rises.refl _)

end Tables.Moves

-- Commands

theorem prepare_moves (h : prepare L p t = .ok t') : t.Moves may t' := by
  simp only [prepare, bind_ok, ensure_ok] at h
  obtain ⟨-, -, -, -, spec, -, h⟩ := h
  split at h
  · simp only [bind_ok, pure_ok] at h
    obtain ⟨-, -, rfl⟩ := h
    exact .refl t
  case h_2 hnone =>
    simp only [bind_ok, ensure_ok, pure_ok, Option.isNone_iff_eq_none] at h
    obtain ⟨-, -, -, -, -, hfree, rfl⟩ := h
    have hget : ∀ key row, ((t.executions.put p.start_key
        (p.row spec (L.sha256 (L.encoded (.list [p.manifest.document, spec.document]))))).get? key =
          some row) → t.executions.get? key = some row ∨ key = p.start_key ∧
            row = p.row spec (L.sha256 (L.encoded (.list [p.manifest.document, spec.document]))) := by
      intro key row hrow
      rcases of_put hrow with ⟨hkey, rfl⟩ | ⟨-, hrow⟩
      · exact .inr ⟨hkey.symm, rfl⟩
      · exact .inl hrow
    refine ⟨.put_new Row.Moves.refl hnone, .refl Rises.refl _, fun hs => ⟨?_, ?_⟩, ?_⟩
    · intro key row hrow
      rcases hget key row hrow with hold | ⟨-, rfl⟩
      · exact hs.rows key row hold
      · exact ⟨rfl, rfl, fun _ => rfl⟩
    · intro key key' row row' hrow hrow' hsame
      rcases hget key row hrow with hold | ⟨rfl, rfl⟩
      · rcases hget key' row' hrow' with hold' | ⟨rfl, rfl⟩
        · exact hs.one_key _ _ _ _ hold hold' hsame
        · exact absurd hsame (attempt?_none hfree hold)
      · rcases hget key' row' hrow' with hold' | ⟨rfl, rfl⟩
        · exact absurd hsame.symm (attempt?_none hfree hold')
        · rfl
    · intro key row hrow hran
      rcases hget key row hrow with hold | ⟨-, rfl⟩
      · exact .inr ⟨row, hold, hran⟩
      · simp [Row.Ran, Preparation.row] at hran

theorem setControl_moves {control : Control} (h : setControl L attempt_id control t = .ok t') : t.Moves may t' := by
  simp only [setControl, bind_ok, ensure_ok] at h
  obtain ⟨-, -, -, -, h⟩ := h
  have hput : t' = { t with controls := t.controls.put attempt_id control } ∧
      ∀ old, t.controls.get? attempt_id = some old → old.Rises control := by
    split at h
    case h_1 old hold =>
      simp only [bind_ok, ensure_ok, decide_eq_true_eq, pure_ok] at h
      obtain ⟨-, hfence, rfl⟩ := h
      refine ⟨rfl, fun old' hold' => ?_⟩
      rw [hold] at hold'
      cases hold'
      exact hfence
    case h_2 hnone =>
      simp only [pure_ok] at h
      subst h
      exact ⟨rfl, fun old hold => absurd hold (hnone old)⟩
  obtain ⟨rfl, hrises⟩ := hput
  exact .of_controls rfl (.put Rises.refl hrises)

theorem initializeControlOnce_moves
    (h : initializeControlOnce L attempt_id prepared_id fence authorization_ref before_write t =
      .ok (t', receipt)) : t.Moves may t' := by
  simp only [initializeControlOnce, bind_ok, ensure_ok, need_ok] at h
  obtain ⟨-, -, -, -, ⟨key, row⟩, -, -, -, -, -, h⟩ := h
  split at h
  case h_1 hnone =>
    simp only [bind_ok, pair_ok] at h
    obtain ⟨-, -, -, -, rfl, -⟩ := h
    exact .of_controls rfl (.put_new Rises.refl hnone)
  · simp only [bind_ok, pair_ok] at h
    obtain ⟨-, -, rfl, -⟩ := h
    exact .refl t

section
variable (h : cancel L attempt_id cancel_key timeout_seconds expected_binding t = .ok t')
include h

theorem cancel_ok : ∃ start_key row, t.attempt? attempt_id = some (start_key, row) ∧
      t'.executions = (t.update start_key Row.cancel).executions ∧
      t'.controls = t.controls.modify attempt_id Control.disable ∧ t'.results = t.results ∧
      t'.usage_events = t.usage_events := by
  simp only [cancel, bind_ok, ensure_ok, need_ok] at h
  obtain ⟨-, -, ⟨key, row⟩, hfound, -, -, h⟩ := h
  refine ⟨key, row, hfound, ?_⟩
  split at h
  · simp only [bind_ok, pure_ok] at h
    obtain ⟨-, -, rfl⟩ := h
    exact ⟨rfl, rfl, rfl, rfl⟩
  · simp only [pure_ok] at h
    subst h
    exact ⟨rfl, rfl, rfl, rfl⟩

theorem cancel_moves : t.Moves may t' := by
  obtain ⟨key, row, -, hrows, hcontrols, -, -⟩ := cancel_ok h
  refine .update (fun _ _ => Row.cancel_moves) ?_ hrows (hcontrols ▸ ?_)
  · intro row _ hran
    refine .inr (hran.imp ?_ id)
    intro hstate
    by_cases hprepared : row.state = .prepared
    · simp [Row.cancel, hprepared] at hstate
    · simpa [Row.cancel, hprepared] using hstate
  · exact .modify Rises.refl fun control _ => Int.le_refl control.fence

end

theorem touched_moves (hf : ∀ row : Row, row.Moves (f row))
    (hran : ∀ row : Row, (f row).Ran → row.Ran) (hrows : t'.executions = (t.update start_key f).executions)
    (hcontrols : t'.controls = t.controls) : t.Moves may t' :=
  .update (fun row _ => hf row) (fun row _ h => .inr (hran row h)) hrows
    (hcontrols ▸ .refl Rises.refl _)

structure Decides (L : Library) (attempt_id event_id : String) (fence : Int) (result : Fields)
    (t t' : Tables) (start_key : String) (row : Row) (outcome : ResultDecision) : Prop where
  found : t.attempt? attempt_id = some (start_key, row)
  fresh : t.results.get? (attempt_id, event_id) = none
  decided : outcome = decision (acceptsResult row (t.controls.get? attempt_id) fence)
  executions : t'.executions = if outcome.accepted then
    (t.update start_key ({ · with business_status := .done })).executions else t.executions
  controls : t'.controls = t.controls
  usage_events : t'.usage_events = t.usage_events
  results : t'.results = t.results.put (attempt_id, event_id) ⟨resultPayload L fence result, outcome⟩

theorem receiveResult_ok (h : receiveResult L attempt_id fence event_id result t = .ok (t', decided)) :
    (t' = t ∧ ∃ existing, t.results.get? (attempt_id, event_id) = some existing ∧
      existing.decision = decided) ∨
    ∃ start_key row, Decides L attempt_id event_id fence result t t' start_key row decided := by
  simp only [receiveResult, bind_ok, ensure_ok, need_ok] at h
  obtain ⟨-, -, ⟨key, row⟩, hfound, h⟩ := h
  split at h
  case h_1 existing hexisting =>
    simp only [bind_ok, pair_ok] at h
    obtain ⟨-, -, rfl, rfl⟩ := h
    exact .inl ⟨rfl, existing, hexisting, rfl⟩
  case h_2 hnone =>
    refine .inr ⟨key, row, ?_⟩
    split at h
    case isTrue haccepted =>
      simp only [pair_ok] at h
      obtain ⟨rfl, rfl⟩ := h
      exact ⟨hfound, hnone, rfl, by rw [if_pos haccepted], rfl, rfl, rfl⟩
    case isFalse haccepted =>
      simp only [pair_ok] at h
      obtain ⟨rfl, rfl⟩ := h
      exact ⟨hfound, hnone, rfl, by rw [if_neg haccepted], rfl, rfl, rfl⟩

theorem acceptsResult_ok {control : Option Control} (h : acceptsResult row control fence = true) :
    row.cancelled = false ∧ row.business_status = .pending ∧
      currentFence control row.manifest fence = true ∧ (row.state = .running ∨ row.state = .finished) := by
  simpa [acceptsResult, and_assoc] using h

theorem receiveResult_moves
    (h : receiveResult L attempt_id fence event_id result t = .ok (t', decided)) : t.Moves may t' := by
  rcases receiveResult_ok h with ⟨rfl, -⟩ | ⟨key, row, hd⟩
  · exact .refl t'
  · have hrows := hd.executions
    split at hrows
    case isTrue haccepted =>
      refine .update (f := ({ · with business_status := .done })) ?_ (fun row' _ hran => .inr hran) hrows
        (hd.controls ▸ .refl Rises.refl _)
      intro row' hrow'
      have hrow := (attempt?_some hd.found).1
      rw [hrow'] at hrow
      cases hrow
      rw [hd.decided] at haccepted
      obtain ⟨-, hpending, -⟩ := acceptsResult_ok haccepted
      exact Row.moves_state rfl rfl rfl rfl rfl id id fun hn => absurd hpending hn
    · exact .of_eq hrows hd.controls

structure Records (attempt_id event_id : String) (t t' : Tables) (start_key : String) (row : Row) :
    Prop where
  found : t.attempt? attempt_id = some (start_key, row)
  fresh : t.usage_events.get? (attempt_id, event_id) = none
  executions : t'.executions = (t.update start_key (·.recordUsage (row.usage_sequence + 1))).executions
  controls : t'.controls = t.controls
  results : t'.results = t.results
  usage_events : ∃ event, event.sequence = row.usage_sequence + 1 ∧
    t'.usage_events = t.usage_events.put (attempt_id, event_id) event

section
variable (h : recordUsage L attempt_id fence event_id usage t = .ok t')
include h

theorem recordUsage_ok : (t' = t ∧ (t.usage_events.get? (attempt_id, event_id)).isSome) ∨
      ∃ start_key row, Records attempt_id event_id t t' start_key row := by
  simp only [recordUsage, bind_ok, ensure_ok, need_ok] at h
  obtain ⟨-, -, ⟨key, row⟩, hfound, h⟩ := h
  split at h
  case h_1 old hold =>
    simp only [bind_ok, pure_ok] at h
    obtain ⟨-, -, rfl⟩ := h
    exact .inl ⟨rfl, by simp [hold]⟩
  case h_2 hnone =>
    simp only [bind_ok, pure_ok] at h
    obtain ⟨-, -, rfl⟩ := h
    exact .inr ⟨key, row, hfound, hnone, rfl, rfl, rfl, _, rfl, rfl⟩

theorem recordUsage_moves : t.Moves may t' := by
  rcases recordUsage_ok h with ⟨rfl, -⟩ | ⟨key, row, hr⟩
  · exact .refl t'
  · exact touched_moves (f := (·.recordUsage _)) (fun row' => Row.moves_state rfl rfl rfl rfl rfl id id fun _ => rfl)
      (fun row' hran => hran) hr.executions hr.controls

end

theorem settleUsage_ok (h : settleUsage attempt_id through_sequence t = .ok t') :
    ∃ start_key row, t.attempt? attempt_id = some (start_key, row) ∧
      t' = t.update start_key ({ · with usage_settled := true }) := by
  simp only [settleUsage, bind_ok, need_ok, pure_ok] at h
  obtain ⟨⟨key, row⟩, hfound, -, -, rfl⟩ := h
  exact ⟨key, row, hfound, rfl⟩

theorem settleUsage_moves (h : settleUsage attempt_id through_sequence t = .ok t') : t.Moves may t' := by
  obtain ⟨key, row, -, rfl⟩ := settleUsage_ok h
  exact touched_moves (f := ({ · with usage_settled := true })) (fun row' => Row.moves_state rfl rfl rfl rfl rfl id id fun _ => rfl)
    (fun row' hran => hran) rfl rfl

theorem serve_moves (h : serve L t a = .ok t') : t.Moves may t' := by
  cases a with
  | prepare p => exact prepare_moves h
  | setControl attempt_id control => exact setControl_moves h
  | initializeControlOnce attempt_id prepared_id fence authorization_ref before_write =>
    obtain ⟨⟨t'', receipt⟩, hok, rfl⟩ := map_ok.mp h
    exact initializeControlOnce_moves hok
  | cancel attempt_id cancel_key timeout_seconds expected_binding => exact cancel_moves h
  | receiveResult attempt_id fence event_id result =>
    obtain ⟨⟨t'', decided⟩, hok, rfl⟩ := map_ok.mp h
    exact receiveResult_moves hok
  | recordUsage attempt_id fence event_id usage => exact recordUsage_moves h
  | settleUsage attempt_id through_sequence => exact settleUsage_moves h
  | start prepared_id activation now | advanceStart index w | advanceSupervisor index w
  | crashStart index | crashSupervisor index => cases h; exact .refl t

theorem commit_moves (h : ∀ t', result = .ok t' → t.Moves may t') : t.Moves may (commit t result) := by
  cases result with
  | ok t' => exact h t' rfl
  | error fault => exact .refl t

-- Starts and supervisors

/-- Where the first transaction of a start accepts its activation. -/
structure Accepts (L : Library) (start_key : String) (now : Rat) (t t' : Tables)
    (starting : Starting) (row : Row) : Prop where
  found : t.executions.get? start_key = some row
  prepared_id : starting.prepared_id = start_key
  attempt : starting.attempt = row.manifest
  unaccepted : row.activation_digest = none
  live : row.cancelled = false
  dispatches : dispatches (t.controls.get? row.manifest.id) row.manifest = true
  binds : starting.activation.binds row.manifest = true
  unexpired : starting.activation.unexpired now = true
  tables : t' = t.update start_key (·.accept L starting.activation)

theorem start_ok (h : start L prepared_id activation now t = .ok (t', outcome)) : (t' = t ∧ outcome = none) ∨
      ∃ starting row, outcome = some starting ∧ Accepts L prepared_id now t t' starting row := by
  simp only [start, bind_ok, ensure_ok, need_ok] at h
  obtain ⟨activation', -, -, -, row, hfound, h⟩ := h
  split at h
  · simp only [bind_ok, pair_ok] at h
    obtain ⟨-, -, rfl, rfl⟩ := h
    exact .inl ⟨rfl, rfl⟩
  case h_2 hnone =>
    simp only [bind_ok, ensure_ok, pair_ok, Bool.and_eq_true, Bool.not_eq_eq_eq_not, Bool.not_true] at h
    obtain ⟨-, ⟨⟨⟨hlive, hdispatches⟩, hbinds⟩, hunexpired⟩, rfl, rfl⟩ := h
    exact .inr ⟨_, row, rfl, hfound, rfl, rfl, hnone, hlive, hdispatches, hbinds, hunexpired, rfl⟩

theorem Accepts.moves (h : Accepts L start_key now t t' starting row) : t.Moves may t' := by
  refine .update ?_ ?_ (congrArg Tables.executions h.tables) (h.tables ▸ .refl Rises.refl _)
  · intro row' hrow'
    rw [h.found] at hrow'
    cases hrow'
    exact Row.accept_moves h.unaccepted h.live
  · intro row' _ hran
    refine .inr (hran.imp (fun hstate => ?_) id)
    simp [Row.accept] at hstate

theorem activate_ok (h : activate starting now t = .ok (t', spawns)) :
    Execution.allowed starting now t = .ok spawns ∧
      t' = t.update starting.prepared_id (·.activate spawns) := by
  simp only [activate, bind_ok, pair_ok] at h
  obtain ⟨allowed', hallowed, rfl, rfl⟩ := h
  exact ⟨hallowed, rfl⟩

theorem activate_moves (h : activate starting now t = .ok (t', spawns)) : t.Moves may t' := by
  obtain ⟨-, rfl⟩ := activate_ok h
  refine touched_moves (f := (·.activate _)) (fun row => Row.activate_moves) (fun row hran => ?_) rfl rfl
  refine hran.imp (fun hstate => ?_) id
  cases spawns <;> simp [Row.activate] at hstate

theorem acknowledge_moves : t.Moves may (acknowledge start_key identity t) :=
  touched_moves (f := (·.acknowledge identity)) (fun _ => Row.acknowledge_moves) (fun _ hran => hran) rfl rfl

section
variable (h : authorise start_key row identity now t = .ok (t', may_launch))
include h

theorem authorise_ok : mayLaunch start_key row now t = .ok may_launch ∧
      t' = t.update start_key (·.authorise identity may_launch) := by
  simp only [authorise, bind_ok, pair_ok] at h
  obtain ⟨may_launch', hmay, rfl, rfl⟩ := h
  exact ⟨hmay, rfl⟩

theorem authorise_moves (hmay : may_launch = true → may start_key) : t.Moves may t' := by
  obtain ⟨-, rfl⟩ := authorise_ok h
  refine .update (fun _ _ => Row.authorise_moves) ?_ rfl (.refl Rises.refl _)
  intro row' _ hran
  unfold Row.authorise at hran
  split at hran
  · cases may_launch with
    | true => exact .inl (hmay rfl)
    | false => exact .inr (hran.imp (fun hstate => by simp at hstate) id)
  · exact .inr hran

end

theorem register_moves {runner identity : ProcessIdentity} :
    t.Moves may (t.update start_key (·.register runner identity)) := by
  refine touched_moves (f := (·.register runner identity)) (fun _ => Row.register_moves) (fun row' hran => ?_) rfl rfl
  unfold Row.register at hran
  split at hran
  · exact hran
  · exact hran

theorem finish_moves {exit_code : Int} (hmay : may start_key) :
    t.Moves may (t.update start_key (·.finish exit_code)) :=
  .update (fun _ _ => Row.finish_moves) (fun _ _ _ => .inl hmay) rfl (.refl Rises.refl _)

end Karajan.Execution
