import Karajan.Execution.Moves
import Karajan.Lib.Fleet

/-!
# Launches

Accepting an activation, allowing the spawn, spawning, allowing the tool and
starting it each happen once for an attempt, in this order, and each under the
authority its own transaction found.
-/

namespace Karajan.Execution

open Check

variable {L : Library} {s : State} {t : Tables} {start_key key : String} {e : Event}

-- The history of a launch

namespace Event

def accepted? : Event → Option String
  | .accepted start_key .. => some start_key
  | _ => none

def activated? : Event → Option String
  | .activated start_key .. => some start_key
  | _ => none

def spawned? : Event → Option String
  | .spawned start_key => some start_key
  | _ => none

def authorised? : Event → Option String
  | .authorised start_key .. => some start_key
  | _ => none

def launched? : Event → Option String
  | .launched start_key => some start_key
  | _ => none

end Event

/-- What a launch needs of the row, its control and its activation. -/
structure Permits (row : Row) (control : Option Control) (activation : Activation) (now : Rat) :
    Prop where
  live : row.cancelled = false
  control : ∃ found, control = some found ∧ found.dispatch_enabled = true ∧
    found.fence = row.manifest.fence ∧ found.authorization_ref = row.manifest.authorization_ref
  unexpired : ∃ expires_at, activation.expires_at = some expires_at ∧ now < expires_at

open Event

def Launches (before : List Event) : Event → Prop
  | .accepted start_key row control activation now =>
      start_key ∉ before.filterMap accepted? ∧
      (∃ found, row = some found ∧ Permits found control activation now ∧
        activation.binds found.manifest = true) ∧
      ∀ found, cancelled start_key found ∉ before
  | .activated start_key row control activation now =>
      start_key ∉ before.filterMap activated? ∧
      (∃ row control now, accepted start_key row control activation now ∈ before) ∧
      ∃ found, row = some found ∧ found.activation = some activation ∧
        Permits found control activation now
  | .spawned start_key =>
      start_key ∉ before.filterMap spawned? ∧
      (∃ row control activation now, activated start_key row control activation now ∈ before) ∧
      ∀ found, cancelled start_key found ∈ before → found.state ≠ .prepared
  | .authorised start_key row control now =>
      start_key ∈ before.filterMap spawned? ∧
      ∃ found activation, row = some found ∧ found.activation = some activation ∧
        Permits found control activation now
  | .launched start_key =>
      start_key ∉ before.filterMap launched? ∧
      ∃ row control now, authorised start_key row control now ∈ before
  | _ => True

section
variable (h : Justified Launches log)
include h

theorem activated_accepted (hm : key ∈ log.filterMap activated?) :
    key ∈ log.filterMap accepted? := by
  refine h.earlier hm fun before e hj hkey => ?_
  cases e <;> cases hkey
  obtain ⟨-, ⟨row, control, now, hevent⟩, -⟩ := hj
  exact List.mem_filterMap.mpr ⟨_, hevent, rfl⟩

theorem spawned_activated (hm : key ∈ log.filterMap spawned?) :
    key ∈ log.filterMap activated? := by
  refine h.earlier hm fun before e hj hkey => ?_
  cases e <;> cases hkey
  obtain ⟨-, ⟨row, control, activation, now, hevent⟩, -⟩ := hj
  exact List.mem_filterMap.mpr ⟨_, hevent, rfl⟩

theorem launched_authorised (hm : key ∈ log.filterMap launched?) :
    key ∈ log.filterMap authorised? := by
  refine h.earlier hm fun before e hj hkey => ?_
  cases e <;> cases hkey
  obtain ⟨-, row, control, now, hevent⟩ := hj
  exact List.mem_filterMap.mpr ⟨_, hevent, rfl⟩

theorem authorised_spawned (hm : key ∈ log.filterMap authorised?) :
    key ∈ log.filterMap spawned? := by
  refine h.earlier hm fun before e hj hkey => ?_
  cases e <;> cases hkey
  exact hj.1

end

-- The invariant

def StartStage.Holds (log : List Event) (starting : Starting) : StartStage → Prop
  | .accepted => starting.prepared_id ∉ log.filterMap activated? ∧
      starting.prepared_id ∉ log.filterMap spawned?
  | .activated => starting.prepared_id ∉ log.filterMap spawned? ∧
      ∃ row control activation now, Event.activated starting.prepared_id row control activation now ∈ log
  | .spawned | .ended => True

def SupervisorStage.Holds (t : Tables) (log : List Event) (start_key : String) : SupervisorStage → Prop
  | .begun => start_key ∉ log.filterMap launched?
  | .grouped row _ => start_key ∉ log.filterMap launched? ∧
      ∃ current, t.executions.get? start_key = some current ∧ current.manifest = row.manifest
  | .authorised .. => start_key ∉ log.filterMap launched? ∧
      start_key ∈ log.filterMap authorised?
  | .launched .. | .watching | .exited _ => start_key ∈ log.filterMap authorised?
  | .ended => True

structure Accepted (t : Tables) (log : List Event) (starting : Starting) : Prop where
  row : ∃ row, t.executions.get? starting.prepared_id = some row ∧ row.manifest = starting.attempt ∧
    row.activation = some starting.activation ∧ row.activation_digest.isSome
  event : ∃ row control now,
    accepted starting.prepared_id row control starting.activation now ∈ log

structure Recorded (t : Tables) (log : List Event) : Prop where
  sound : t.Sound
  accepted : ∀ key ∈ log.filterMap accepted?, ∃ row, t.executions.get? key = some row ∧
    row.activation_digest.isSome ∧ row.state ≠ .prepared
  withdrawn : ∀ key found, cancelled key found ∈ log →
    ∃ row, t.executions.get? key = some row ∧ row.cancelled = true ∧
      (found.state = .prepared → row.activation_digest = none)
  ran : ∀ key row, t.executions.get? key = some row → row.Ran → key ∈ log.filterMap authorised?

structure LaunchInv (s : State) (log : List Event) : Prop where
  justified : Justified Launches log
  recorded : Recorded s.tables log
  starts : Fleet Starting.prepared_id
    (fun starting stage => Accepted s.tables log starting ∧ stage.Holds log starting) s.starts
  supervisors : Fleet (fun start_key => start_key)
    (fun key stage => key ∈ log.filterMap spawned? ∧ stage.Holds s.tables log key) s.supervisors

-- One more event

theorem filterMap_snoc : key ∈ (log ++ [e]).filterMap f ↔ key ∈ log.filterMap f ∨ f e = some key := by
  cases h : f e <;> simp [h, eq_comm]

theorem mem_snoc_left (h : e' ∈ log) : e' ∈ log ++ [e] := List.mem_append_left _ h

theorem mem_snoc_right : e ∈ log ++ [e] := List.mem_append_right _ (List.mem_singleton.mpr rfl)

theorem StartStage.Holds.snoc {stage : StartStage} (h : stage.Holds log starting)
    (ha : e.activated? ≠ some starting.prepared_id) (hs : e.spawned? ≠ some starting.prepared_id) :
    stage.Holds (log ++ [e]) starting := by
  cases stage with
  | accepted => exact ⟨fun hm => (filterMap_snoc.mp hm).elim h.1 ha,
      fun hm => (filterMap_snoc.mp hm).elim h.2 hs⟩
  | activated =>
    obtain ⟨hspawned, row, control, activation, now, hevent⟩ := h
    exact ⟨fun hm => (filterMap_snoc.mp hm).elim hspawned hs,
      row, control, activation, now, mem_snoc_left hevent⟩
  | spawned | ended => trivial

theorem SupervisorStage.Holds.snoc {stage : SupervisorStage} (h : stage.Holds t log start_key)
    (hl : e.launched? ≠ some start_key) : stage.Holds t (log ++ [e]) start_key := by
  have hnot : start_key ∉ log.filterMap launched? →
      start_key ∉ (log ++ [e]).filterMap launched? :=
    fun hn hm => (filterMap_snoc.mp hm).elim hn hl
  have hauthorised : start_key ∈ log.filterMap authorised? →
      start_key ∈ (log ++ [e]).filterMap authorised? :=
    fun hm => filterMap_snoc.mpr (.inl hm)
  cases stage with
  | begun => exact hnot h
  | grouped row identity => exact ⟨hnot h.1, h.2⟩
  | authorised row identity => exact ⟨hnot h.1, hauthorised h.2⟩
  | launched identity runner | watching | exited exit_code => exact hauthorised h
  | ended => trivial

theorem Accepted.snoc (h : Accepted t log starting) : Accepted t (log ++ [e]) starting := by
  obtain ⟨row, control, now, hevent⟩ := h.event
  exact ⟨h.row, row, control, now, mem_snoc_left hevent⟩

def Event.aside (e : Event) : Prop :=
  e.accepted? = none ∧ e.activated? = none ∧ e.spawned? = none ∧ e.authorised? = none ∧
    e.launched? = none

theorem Recorded.snoc (h : Recorded t log)
    (ha : ∀ key, e.accepted? = some key → ∃ row, t.executions.get? key = some row ∧
      row.activation_digest.isSome ∧ row.state ≠ .prepared)
    (hc : ∀ key found, e = .cancelled key found → ∃ row, t.executions.get? key = some row ∧
      row.cancelled = true ∧ (found.state = .prepared → row.activation_digest = none)) :
    Recorded t (log ++ [e]) where
  sound := h.sound
  accepted key hkey := (filterMap_snoc.mp hkey).elim (h.accepted key) (ha key)
  withdrawn key found hm := by
    rcases List.mem_append.mp hm with hm | hm
    · exact h.withdrawn key found hm
    · exact hc key found (List.mem_singleton.mp hm).symm
  ran key row hrow hran := filterMap_snoc.mpr (.inl (h.ran key row hrow hran))

theorem Recorded.beside (h : Recorded t log) (ha : e.accepted? = none)
    (hc : ∀ key found, e ≠ .cancelled key found) : Recorded t (log ++ [e]) :=
  h.snoc (by simp [ha]) fun key found heq => absurd heq (hc key found)

theorem Accepted.follows (h : Accepted t log starting) (hm : t.Moves may t') : Accepted t' log starting := by
  obtain ⟨row, hrow, hmanifest, hactivation, hdigest⟩ := h.row
  obtain ⟨row', hrow', hmoves⟩ := hm.rows _ row hrow
  obtain ⟨hdigest', hactivation'⟩ := hmoves.activation hdigest
  exact ⟨⟨row', hrow', hmoves.manifest.trans hmanifest, hactivation'.trans hactivation,
    hdigest' ▸ hdigest⟩, h.event⟩

theorem SupervisorStage.Holds.follows {stage : SupervisorStage} (h : stage.Holds t log start_key)
    (hm : t.Moves may t') : stage.Holds t' log start_key := by
  cases stage with
  | begun | authorised row identity | launched identity runner | watching | exited exit_code | ended =>
    exact h
  | grouped row identity =>
    obtain ⟨hlaunched, current, hcurrent, hmanifest⟩ := h
    obtain ⟨row', hrow', hmoves⟩ := hm.rows _ current hcurrent
    exact ⟨hlaunched, row', hrow', hmoves.manifest.trans hmanifest⟩

theorem Recorded.follows (h : Recorded t log) (hm : t.Moves (· ∈ log.filterMap authorised?) t') :
    Recorded t' log where
  sound := hm.sound h.sound
  accepted key hkey := by
    obtain ⟨row, hrow, hdigest, hstate⟩ := h.accepted key hkey
    obtain ⟨row', hrow', hmoves⟩ := hm.rows key row hrow
    exact ⟨row', hrow', (hmoves.activation hdigest).1 ▸ hdigest, hmoves.begun hstate⟩
  withdrawn key found hevent := by
    obtain ⟨row, hrow, hcancelled, hprepared⟩ := h.withdrawn key found hevent
    obtain ⟨row', hrow', hmoves⟩ := hm.rows key row hrow
    exact ⟨row', hrow', hmoves.cancelled hcancelled,
      fun hs => hmoves.withdrawn hcancelled (hprepared hs)⟩
  ran key row' hrow' hran := by
    rcases hm.ran key row' hrow' hran with hmay | ⟨row, hrow, hold⟩
    · exact hmay
    · exact h.ran key row hrow hold

theorem dispatches_ok {control : Option Control}
    (h : dispatches control manifest = true) : ∃ found, control = some found ∧
      found.dispatch_enabled = true ∧ found.fence = manifest.fence ∧
      found.authorization_ref = manifest.authorization_ref := by
  cases control with
  | none => cases h
  | some found =>
    simp only [dispatches, Bool.and_eq_true, decide_eq_true_eq] at h
    exact ⟨found, rfl, h.1.1, h.1.2, h.2⟩

theorem unexpired_ok {activation : Activation} (h : activation.unexpired now = true) :
    ∃ expires_at, activation.expires_at = some expires_at ∧ now < expires_at := by
  unfold Activation.unexpired at h
  split at h
  case h_1 expires_at hsome => exact ⟨expires_at, hsome, of_decide_eq_true h⟩
  · cases h

variable {row : Row}

theorem Permits.of_checks {control : Option Control} {activation : Activation} {now : Rat}
    (hlive : row.cancelled = false) (hd : dispatches control row.manifest = true)
    (hu : activation.unexpired now = true) : Permits row control activation now :=
  ⟨hlive, dispatches_ok hd, unexpired_ok hu⟩

theorem Tables.Sound.found (h : t.Sound) (hrow : t.executions.get? start_key = some row) :
    t.found start_key = (some row, t.controls.get? row.manifest.id) := by
  simp [Tables.found, hrow, (h.rows _ _ hrow).attempt_id]

theorem mayLaunch_ok {now : Rat} {activation : Activation}
    (h : mayLaunch start_key row now t = .ok true) (hcurrent : t.executions.get? start_key = some current)
    (hmanifest : current.manifest = row.manifest) (hactivation : current.activation = some activation) :
    Permits current (t.controls.get? current.manifest.id) activation now := by
  simp only [mayLaunch, bind_ok, need_ok] at h
  obtain ⟨current', hcurrent', h⟩ := h
  rw [hcurrent] at hcurrent'
  cases hcurrent'
  split at h
  · cases h
  case isFalse hgranted =>
    simp only [bind_ok, need_ok, pure_ok, hactivation, Option.some.injEq] at h
    obtain ⟨activation', rfl, hunexpired⟩ := h
    simp only [Bool.or_eq_true, Bool.not_eq_eq_eq_not, Bool.not_true, not_or, Bool.not_eq_true,
      Bool.not_eq_false, ← hmanifest] at hgranted
    exact .of_checks hgranted.1 hgranted.2 hunexpired

section
variable (h : LaunchInv s log)
include h

theorem LaunchInv.aside (ha : e.aside) (hj : Launches log e)
    (hr : Recorded s.tables (log ++ [e])) : LaunchInv s (log ++ [e]) := by
  obtain ⟨-, hactivated, hspawned, -, hlaunched⟩ := ha
  refine { justified := h.justified.snoc hj, recorded := hr, starts := ?_, supervisors := ?_ }
  · refine h.starts.mono fun p _ hp => ⟨hp.1.snoc, hp.2.snoc ?_ ?_⟩
    · simp [hactivated]
    · simp [hspawned]
  · refine h.supervisors.mono fun p _ hp => ⟨filterMap_snoc.mpr (.inl hp.1), hp.2.snoc ?_⟩
    simp [hlaunched]

-- Steps of the tables

theorem LaunchInv.follows (hm : s.tables.Moves (· ∈ log.filterMap authorised?) t) :
    LaunchInv { s with tables := t } log where
  justified := h.justified
  recorded := h.recorded.follows hm
  starts := h.starts.mono fun _ _ hp => ⟨hp.1.follows hm, hp.2⟩
  supervisors := h.supervisors.mono fun _ _ hp => ⟨hp.1, hp.2.follows hm⟩

theorem LaunchInv.served (a : Action) : LaunchInv { s with tables := commit s.tables (serve L s.tables a) } log :=
  h.follows (commit_moves fun _ hok => serve_moves hok)

-- Found authority

-- Steps of a start

theorem LaunchInv.start : LaunchInv (s.start L prepared_id activation now)
    (log ++ (emit L s (.start prepared_id activation now)).toList) := by
  simp only [State.start, emit]
  generalize hs : Execution.start L prepared_id activation now s.tables = outcome
  rcases outcome with fault | ⟨t, _ | starting⟩
  · simpa using h
  · simpa using h
  · rcases start_ok hs with ⟨-, hnone⟩ | ⟨starting', row, heq, ha⟩
    · cases hnone
    cases heq
    have hid : starting.prepared_id = prepared_id := ha.prepared_id
    subst hid
    have hnew : starting.prepared_id ∉ log.filterMap accepted? := by
      intro hm
      obtain ⟨row', hrow', hdigest, -⟩ := h.recorded.accepted _ hm
      rw [ha.found] at hrow'
      cases hrow'
      simp [ha.unaccepted] at hdigest
    have hunwithdrawn : ∀ found, cancelled starting.prepared_id found ∉ log := by
      intro found hm
      obtain ⟨row', hrow', hcancelled, -⟩ := h.recorded.withdrawn _ found hm
      rw [ha.found] at hrow'
      cases hrow'
      simp [ha.live] at hcancelled
    have hstored : t.executions.get? starting.prepared_id =
        some (row.accept L starting.activation) := by
      simp [ha.tables, Tables.Moves.get?_update, ha.found]
    have hj : Launches log (.accepted starting.prepared_id (some row)
        (s.tables.controls.get? row.manifest.id) starting.activation now) :=
      ⟨hnew, ⟨row, rfl, .of_checks ha.live ha.dispatches ha.unexpired, ha.binds⟩, hunwithdrawn⟩
    have hf := h.follows ha.moves
    rw [h.recorded.sound.found ha.found]
    have hunactivated : starting.prepared_id ∉ log.filterMap activated? :=
      fun hm => hnew (activated_accepted h.justified hm)
    have hunspawned : starting.prepared_id ∉ log.filterMap spawned? :=
      fun hm => hunactivated (spawned_activated h.justified hm)
    refine { justified := h.justified.snoc hj, recorded := hf.recorded.snoc ?_ ?_, starts := ?_
             supervisors := ?_ }
    · intro key hkey
      cases hkey
      exact ⟨_, hstored, rfl, by simp [Row.accept]⟩
    · intro key found heq
      cases heq
    · refine Fleet.spawn ?_ ?_ ⟨⟨⟨_, hstored, ha.attempt.symm, rfl, rfl⟩, _, _, _, mem_snoc_right⟩, ?_, ?_⟩
      · refine hf.starts.mono fun p _ hp => ⟨hp.1.snoc, hp.2.snoc ?_ ?_⟩ <;>
          simp [activated?, spawned?]
      · intro p hp heq
        obtain ⟨row', control', now', haccepted⟩ := (h.starts.holds p hp).1.event
        exact hnew (List.mem_filterMap.mpr ⟨_, haccepted, by simp [accepted?, heq]⟩)
      · exact fun hm => (filterMap_snoc.mp hm).elim hunactivated (by simp [Event.activated?])
      · exact fun hm => (filterMap_snoc.mp hm).elim hunspawned (by simp [spawned?])
    · refine hf.supervisors.mono fun p _ hp => ⟨filterMap_snoc.mpr (.inl hp.1), hp.2.snoc ?_⟩
      simp [Event.launched?]

theorem LaunchInv.startEnds (hget : s.starts[index]? = some (starting, stage)) :
    LaunchInv { s with starts := s.starts.set index (starting, .ended) } log :=
  { h with starts := h.starts.reach hget ⟨(h.starts.holds_at hget).1, trivial⟩ }

theorem LaunchInv.activates (hget : s.starts[index]? = some (starting, StartStage.accepted))
    (ha : activate starting now s.tables = .ok (t, true)) :
    LaunchInv { s with tables := t, starts := s.starts.set index (starting, .activated) }
      (log ++ [.activated starting.prepared_id (s.tables.found starting.prepared_id).1
        (s.tables.found starting.prepared_id).2 starting.activation now]) := by
  obtain ⟨hallowed, -⟩ := activate_ok ha
  obtain ⟨⟨⟨row, hrow, hmanifest, hactivation, -⟩, hevent⟩, hunactivated, hunspawned⟩ :=
    h.starts.holds_at hget
  simp only [allowed, bind_ok, need_ok, pure_ok, Bool.and_eq_true, Bool.not_eq_eq_eq_not,
    Bool.not_true] at hallowed
  obtain ⟨current, hcurrent, ⟨hlive, hdispatches⟩, hunexpired⟩ := hallowed
  rw [hrow] at hcurrent
  cases hcurrent
  rw [← hmanifest] at hdispatches
  rw [h.recorded.sound.found hrow]
  obtain ⟨row', control', now', haccepted⟩ := hevent
  have hj : Launches log (.activated starting.prepared_id (some row)
      (s.tables.controls.get? row.manifest.id) starting.activation now) :=
    ⟨hunactivated, ⟨row', control', now', haccepted⟩, row, rfl, hactivation,
      .of_checks hlive hdispatches hunexpired⟩
  have hf := h.follows (activate_moves ha)
  refine { justified := h.justified.snoc hj, recorded := hf.recorded.beside rfl (by simp)
           starts := ?_, supervisors := ?_ }
  · refine hf.starts.advance hget (fun p _ hne hp => ⟨hp.1.snoc, hp.2.snoc ?_ ?_⟩)
      ⟨(hf.starts.holds_at hget).1.snoc, ?_, _, _, _, _, mem_snoc_right⟩
    · simpa [activated?] using hne.symm
    · simp [spawned?]
    · exact fun hm => (filterMap_snoc.mp hm).elim hunspawned (by simp [spawned?])
  · refine hf.supervisors.mono fun p _ hp => ⟨filterMap_snoc.mpr (.inl hp.1), hp.2.snoc ?_⟩
    simp [launched?]

theorem LaunchInv.spawns (hget : s.starts[index]? = some (starting, StartStage.activated)) :
    LaunchInv { tables := s.tables, starts := s.starts.set index (starting, .spawned)
                supervisors := s.supervisors ++ [(starting.prepared_id, .begun)] }
      (log ++ [.spawned starting.prepared_id]) := by
  obtain ⟨⟨⟨row, hrow, -, -, hdigest⟩, -⟩, hunspawned, hactivated⟩ := h.starts.holds_at hget
  have hprepared : ∀ found, cancelled starting.prepared_id found ∈ log →
      found.state ≠ .prepared := by
    intro found hm hstate
    obtain ⟨row', hrow', -, hnone⟩ := h.recorded.withdrawn _ found hm
    rw [hrow] at hrow'
    cases hrow'
    simp [hnone hstate] at hdigest
  have hunlaunched : starting.prepared_id ∉ log.filterMap launched? :=
    fun hm => hunspawned (authorised_spawned h.justified (launched_authorised h.justified hm))
  refine { justified := h.justified.snoc ⟨hunspawned, hactivated, hprepared⟩
           recorded := h.recorded.beside rfl (by simp), starts := ?_, supervisors := ?_ }
  · refine h.starts.advance hget (fun p _ hne hp => ⟨hp.1.snoc, hp.2.snoc ?_ ?_⟩)
      ⟨(h.starts.holds_at hget).1.snoc, trivial⟩
    · simp [activated?]
    · simpa [spawned?] using hne.symm
  · refine Fleet.spawn ?_ ?_ ⟨filterMap_snoc.mpr (.inr rfl), ?_⟩
    · refine h.supervisors.mono fun p _ hp => ⟨filterMap_snoc.mpr (.inl hp.1), hp.2.snoc ?_⟩
      simp [launched?]
    · rintro ⟨key, stage⟩ hp rfl
      exact hunspawned (h.supervisors.holds _ hp).1
    · exact fun hm => (filterMap_snoc.mp hm).elim hunlaunched (by simp [launched?])

theorem LaunchInv.advanceStart :
    LaunchInv (s.advanceStart index w) (log ++ (emit L s (.advanceStart index w)).toList) := by
  cases hget : s.starts[index]? with
  | none => simpa [State.advanceStart, emit, hget] using h
  | some p =>
    obtain ⟨starting, stage⟩ := p
    simp only [State.advanceStart, emit, hget]
    cases stage with
    | accepted =>
      simp only [Execution.advanceStart]
      generalize ha : activate starting w.now s.tables = outcome
      rcases outcome with fault | ⟨t, _ | _⟩
      · have hnone : ∀ spawns, allowed starting w.now s.tables ≠ .ok spawns := by
          intro spawns hok
          simp [activate, hok] at ha
        generalize hallowed : allowed starting w.now s.tables = found
        rcases found with fault' | spawns
        · simpa using h.startEnds hget
        · exact absurd hallowed (hnone spawns)
      · rw [(activate_ok ha).1]
        simpa using (h.follows (activate_moves ha)).startEnds hget
      · rw [(activate_ok ha).1]
        exact h.activates hget ha
    | activated =>
      simp only [Execution.advanceStart]
      by_cases hsucceeds : w.succeeds = true
      · simp only [if_pos hsucceeds]
        exact h.spawns hget
      · simp only [if_neg hsucceeds]
        simpa using h.startEnds hget
    | spawned => simpa [Execution.advanceStart] using (h.follows acknowledge_moves).startEnds hget
    | ended => simpa [Execution.advanceStart] using h.startEnds hget

-- Steps of a supervisor

theorem LaunchInv.goesOn (hget : s.supervisors[index]? = some (start_key, stage)) (stage' : SupervisorStage)
    (hm : s.tables.Moves (· ∈ log.filterMap authorised?) t) (hstage : stage'.Holds t log start_key) :
    LaunchInv { s with tables := t, supervisors := s.supervisors.set index (start_key, stage') } log := by
  have hf := h.follows hm
  exact { hf with supervisors := hf.supervisors.reach hget ⟨(h.supervisors.holds_at hget).1, hstage⟩ }

theorem LaunchInv.authorises {identity : ProcessIdentity}
    (hget : s.supervisors[index]? = some (start_key, SupervisorStage.grouped row identity))
    (ha : authorise start_key row identity now s.tables = .ok (t, true)) :
    LaunchInv { s with tables := t,
                       supervisors := s.supervisors.set index (start_key, .authorised row identity) }
      (log ++ [.authorised start_key (s.tables.found start_key).1 (s.tables.found start_key).2 now]) := by
  obtain ⟨hspawned, hunlaunched, current, hcurrent, hmanifest⟩ := h.supervisors.holds_at hget
  have haccepted := activated_accepted h.justified (spawned_activated h.justified hspawned)
  obtain ⟨current', hcurrent', hdigest, -⟩ := h.recorded.accepted _ haccepted
  rw [hcurrent] at hcurrent'
  cases hcurrent'
  have hsome : current.activation.isSome := by
    rw [(h.recorded.sound.rows _ _ hcurrent).activation]
    exact hdigest
  obtain ⟨activation, hactivation⟩ := Option.isSome_iff_exists.mp hsome
  have hpermits := mayLaunch_ok (authorise_ok ha).1 hcurrent hmanifest hactivation
  rw [h.recorded.sound.found hcurrent]
  have hj : Launches log (.authorised start_key (some current)
      (s.tables.controls.get? current.manifest.id) now) :=
    ⟨hspawned, current, activation, rfl, hactivation, hpermits⟩
  let log' := log ++ [authorised start_key (some current)
    (s.tables.controls.get? current.manifest.id) now]
  have hm : s.tables.Moves (· ∈ log'.filterMap authorised?) t :=
    authorise_moves ha fun _ => filterMap_snoc.mpr (.inr rfl)
  refine { justified := h.justified.snoc hj, recorded := (h.recorded.beside rfl (by simp)).follows hm
           starts := ?_, supervisors := ?_ }
  · refine h.starts.mono fun p _ hp => ⟨(hp.1.follows hm).snoc, hp.2.snoc ?_ ?_⟩ <;>
      simp [activated?, spawned?]
  · refine h.supervisors.advance hget
      (fun p _ _ hp => ⟨filterMap_snoc.mpr (.inl hp.1), (hp.2.follows hm).snoc ?_⟩)
      ⟨filterMap_snoc.mpr (.inl hspawned), ?_, filterMap_snoc.mpr (.inr rfl)⟩
    · simp [launched?]
    · exact fun hl => (filterMap_snoc.mp hl).elim hunlaunched (by simp [launched?])

theorem LaunchInv.launches {identity : ProcessIdentity}
    (hget : s.supervisors[index]? = some (start_key, SupervisorStage.authorised row identity)) :
    LaunchInv { s with supervisors := s.supervisors.set index (start_key, .launched identity runner) }
      (log ++ [.launched start_key]) := by
  obtain ⟨hspawned, hunlaunched, hauthorised⟩ := h.supervisors.holds_at hget
  have hj : Launches log (.launched start_key) := by
    obtain ⟨e, he, hkey⟩ := List.mem_filterMap.mp hauthorised
    cases e <;> simp only [authorised?, reduceCtorEq, Option.some.injEq] at hkey
    subst hkey
    exact ⟨hunlaunched, _, _, _, he⟩
  refine { justified := h.justified.snoc hj, recorded := h.recorded.beside rfl (by simp)
           starts := ?_, supervisors := ?_ }
  · refine h.starts.mono fun p _ hp => ⟨hp.1.snoc, hp.2.snoc ?_ ?_⟩ <;>
      simp [activated?, spawned?]
  · refine h.supervisors.advance hget (fun p _ hne hp => ⟨filterMap_snoc.mpr (.inl hp.1), hp.2.snoc ?_⟩)
      ⟨filterMap_snoc.mpr (.inl hspawned), filterMap_snoc.mpr (.inl hauthorised)⟩
    simpa [launched?] using Ne.symm hne

theorem LaunchInv.advanceSupervisor :
    LaunchInv (s.advanceSupervisor index w) (log ++ (emit L s (.advanceSupervisor index w)).toList) := by
  cases hget : s.supervisors[index]? with
  | none => simpa [State.advanceSupervisor, emit, hget] using h
  | some p =>
    obtain ⟨start_key, stage⟩ := p
    have hends : LaunchInv { s with supervisors := s.supervisors.set index (start_key, .ended) } log :=
      h.goesOn hget .ended (.refl _) trivial
    have hstage := (h.supervisors.holds_at hget).2
    simp only [State.advanceSupervisor, emit, hget]
    cases stage with
    | begun =>
      simp only [Execution.advanceSupervisor, enter]
      split
      case h_1 row identity hrow _ =>
        split
        · simpa using h.goesOn hget (.grouped row identity) (.refl _) ⟨hstage, row, hrow, rfl⟩
        · simpa using hends
      · simpa using hends
    | grouped row identity =>
      simp only [Execution.advanceSupervisor]
      generalize ha : authorise start_key row identity w.now s.tables = outcome
      rcases outcome with fault | ⟨t, _ | _⟩
      · have hnone : ∀ may_launch, mayLaunch start_key row w.now s.tables ≠ .ok may_launch := by
          intro may_launch hok
          simp [authorise, hok] at ha
        generalize hmay : mayLaunch start_key row w.now s.tables = found
        rcases found with fault' | may_launch
        · simpa using hends
        · exact absurd hmay (hnone may_launch)
      · rw [(authorise_ok ha).1]
        simpa using h.goesOn hget .ended (authorise_moves ha (by simp)) trivial
      · rw [(authorise_ok ha).1]
        exact h.authorises hget ha
    | authorised row identity =>
      simp only [Execution.advanceSupervisor]
      by_cases hsucceeds : w.succeeds = true
      · simp only [if_pos hsucceeds]
        exact h.launches hget
      · simp only [if_neg hsucceeds]
        simpa using hends
    | launched identity runner =>
      cases runner with
      | none => simpa [Execution.advanceSupervisor] using h.goesOn hget .watching (.refl _) hstage
      | some runner =>
        simpa [Execution.advanceSupervisor] using h.goesOn hget .watching register_moves hstage
    | watching =>
      simp only [Execution.advanceSupervisor]
      split
      · simpa using hends
      · split
        case h_1 exit_code _ => simpa using h.goesOn hget (.exited exit_code) (.refl _) hstage
        · simpa using h.goesOn hget .watching (.refl _) hstage
    | exited exit_code =>
      simpa [Execution.advanceSupervisor] using h.goesOn hget .ended (finish_moves hstage) trivial
    | ended => simpa [Execution.advanceSupervisor] using hends

-- Commands and crashes

theorem LaunchInv.crashStart : LaunchInv (s.step L (.crashStart index)) log := by
  show LaunchInv { s with starts := s.starts.modify index fun p => (p.1, .ended) } log
  cases hget : s.starts[index]? with
  | none => rwa [modify_absent hget]
  | some p =>
    rw [modify_ended hget]
    exact h.startEnds hget

theorem LaunchInv.crashSupervisor : LaunchInv (s.step L (.crashSupervisor index)) log := by
  show LaunchInv { s with supervisors := s.supervisors.modify index fun p => (p.1, .ended) } log
  cases hget : s.supervisors[index]? with
  | none => rwa [modify_absent hget]
  | some p =>
    rw [modify_ended hget]
    exact h.goesOn hget .ended (.refl _) trivial

theorem LaunchInv.cancels :
    LaunchInv (s.step L (.cancel attempt_id cancel_key timeout_seconds expected_binding)) (log ++
      (emit L s (.cancel attempt_id cancel_key timeout_seconds expected_binding)).toList) := by
  have hserved := h.served (L := L) (.cancel attempt_id cancel_key timeout_seconds expected_binding)
  simp only [State.step, serve, emit] at hserved ⊢
  generalize hc : cancel L attempt_id cancel_key timeout_seconds expected_binding s.tables = outcome at hserved ⊢
  rcases outcome with fault | t
  · simpa using hserved
  · obtain ⟨key, row, hfound, hrows, -, -, -⟩ := cancel_ok hc
    obtain ⟨hrow, -⟩ := attempt?_some hfound
    have hstored : t.executions.get? key = some row.cancel := by
      simp [hrows, Tables.Moves.get?_update, hrow]
    simp only [hfound, Option.map_some, Option.toList_some, commit] at hserved ⊢
    refine hserved.aside ⟨rfl, rfl, rfl, rfl, rfl⟩ trivial (hserved.recorded.snoc (by simp [accepted?]) ?_)
    intro key' found heq
    cases heq
    refine ⟨_, hstored, rfl, fun hprepared => ?_⟩
    exact (h.recorded.sound.rows _ _ hrow).unaccepted hprepared

theorem LaunchInv.serves
    (ho : ∀ e, o = some e → e.aside ∧ Launches log e ∧ ∀ key found, e ≠ .cancelled key found) (a : Action) :
    LaunchInv { s with tables := commit s.tables (serve L s.tables a) } (log ++ o.toList) := by
  have hserved := h.served (L := L) a
  cases o with
  | none => simpa using hserved
  | some e =>
    obtain ⟨haside, hj, hcancelled⟩ := ho e rfl
    exact hserved.aside haside hj (hserved.recorded.beside haside.1 hcancelled)

end

-- Runs

theorem launchInv_initial : LaunchInv State.empty [] where
  justified := .nil
  recorded := ⟨.empty, by simp, by simp, fun key row h => by cases h⟩
  starts := .nil
  supervisors := .nil

theorem launchInv_step (p : State × List Event) (a : Action) (h : LaunchInv p.1 p.2) :
    LaunchInv (p.1.step L a) (p.2 ++ (emit L p.1 a).toList) := by
  cases a with
  | start prepared_id activation now => exact h.start
  | advanceStart index w => exact h.advanceStart
  | advanceSupervisor index w => exact h.advanceSupervisor
  | crashStart index => simpa [emit] using h.crashStart
  | crashSupervisor index => simpa [emit] using h.crashSupervisor
  | cancel attempt_id cancel_key timeout_seconds expected_binding => exact h.cancels
  | prepare preparation | setControl attempt_id control => exact h.serves (by simp [emit]) _
  | initializeControlOnce attempt_id prepared_id fence authorization_ref before_write =>
    exact h.serves (by simp [emit]) _
  | receiveResult attempt_id fence event_id result | settleUsage attempt_id through_sequence =>
    refine h.serves (fun e he => ?_) _
    simp only [emit] at he
    split at he
    · cases he; exact ⟨⟨rfl, rfl, rfl, rfl, rfl⟩, trivial, by simp⟩
    · cases he
  | recordUsage attempt_id fence event_id usage =>
    refine h.serves (fun e he => ?_) _
    simp only [emit] at he
    split at he
    · obtain ⟨event, -, rfl⟩ := Option.map_eq_some_iff.mp he
      exact ⟨⟨rfl, rfl, rfl, rfl, rfl⟩, trivial, by simp⟩
    · cases he

theorem launchInv_reach (h : ((system L).traced (emit L)).Reach System.free p) : LaunchInv p.1 p.2 := by
  refine h.invariant ?_ fun p a hp _ => launchInv_step p a hp
  rintro ⟨s, log⟩ ⟨hs, hlog⟩
  cases hs
  cases hlog
  exact launchInv_initial

theorem advanceStart_moves : s.tables.Moves (fun _ => True) (advanceStart w s starting stage).1.tables := by
  cases stage with
  | accepted =>
    simp only [advanceStart]
    split
    case h_1 ha => exact activate_moves ha
    case h_2 ha => exact activate_moves ha
    · exact .refl _
  | activated =>
    simp only [advanceStart]
    split
    · exact .refl _
    · exact .refl _
  | spawned => exact acknowledge_moves
  | ended => exact .refl _

theorem advanceSupervisor_moves : t.Moves (fun _ => True) (advanceSupervisor w t start_key stage).1 := by
  cases stage with
  | begun | ended => exact .refl _
  | grouped row identity =>
    simp only [advanceSupervisor]
    split
    case h_1 ha => exact authorise_moves ha fun _ => trivial
    case h_2 ha => exact authorise_moves ha fun _ => trivial
    · exact .refl _
  | authorised row identity =>
    simp only [advanceSupervisor]
    split
    · exact .refl _
    · exact .refl _
  | launched identity runner =>
    cases runner with
    | none => exact .refl _
    | some runner => exact register_moves
  | watching =>
    simp only [advanceSupervisor]
    split
    · exact .refl _
    · split <;> exact .refl _
  | exited exit_code => exact finish_moves trivial

theorem step_moves (s : State) (a : Action) : s.tables.Moves (fun _ => True) (s.step L a).tables := by
  have hserved : s.tables.Moves (fun _ => True) (commit s.tables (serve L s.tables a)) :=
    commit_moves fun _ hok => serve_moves hok
  cases a with
  | start prepared_id activation now =>
    simp only [State.step, State.start]
    split
    case h_1 hs =>
      rcases start_ok hs with ⟨-, hnone⟩ | ⟨starting, row, -, ha⟩
      · cases hnone
      · exact ha.moves
    · exact .refl _
  | advanceStart index w =>
    simp only [State.step, State.advanceStart]
    split
    · exact advanceStart_moves
    · exact .refl _
  | advanceSupervisor index w =>
    simp only [State.step, State.advanceSupervisor]
    split
    · exact advanceSupervisor_moves
    · exact .refl _
  | crashStart index | crashSupervisor index => exact .refl _
  | prepare preparation | setControl attempt_id control
  | initializeControlOnce attempt_id prepared_id fence authorization_ref before_write
  | cancel attempt_id cancel_key timeout_seconds expected_binding
  | receiveResult attempt_id fence event_id result | recordUsage attempt_id fence event_id usage
  | settleUsage attempt_id through_sequence => exact hserved

structure Row.Bound (row row' : Row) : Prop where
  attempt_id : row'.attempt_id = row.attempt_id
  manifest : row'.manifest = row.manifest
  spec : row'.spec = row.spec
  activation : ∀ activation, row.activation = some activation → row'.activation = some activation

theorem Row.Moves.bound (h : row.Moves row') (hs : row.Sound) : row.Bound row' :=
  { h with
    activation := fun activation ha => by
      have hdigest : row.activation_digest.isSome := by rw [← hs.activation, ha]; rfl
      rw [(h.activation hdigest).2, ha] }

theorem Row.Bound.refl (row : Row) : row.Bound row := ⟨rfl, rfl, rfl, fun _ h => h⟩

theorem Row.Bound.trans (h : row.Bound row') (h' : row'.Bound row'') : row.Bound row'' where
  attempt_id := h'.attempt_id.trans h.attempt_id
  manifest := h'.manifest.trans h.manifest
  spec := h'.spec.trans h.spec
  activation activation ha := h'.activation activation (h.activation activation ha)

/-- From one state of a run to a later one, rows stay bound and fences rise. -/
structure Later (t t' : Tables) : Prop where
  rows : t.executions.Grows Row.Bound t'.executions
  controls : t.controls.Grows Control.Rises t'.controls

theorem Later.refl (t : Tables) : Later t t := ⟨.refl Row.Bound.refl _, .refl Control.Rises.refl _⟩

theorem Later.trans (h : Later t t') (h' : Later t' t'') : Later t t'' where
  rows := h.rows.trans (fun _ _ _ => Row.Bound.trans) h'.rows
  controls := h.controls.trans (fun _ _ _ => Int.le_trans) h'.controls

theorem Tables.Moves.later (h : t.Moves may t') (hs : t.Sound) : Later t t' where
  rows key row hrow := by
    obtain ⟨row', hrow', hm⟩ := h.rows key row hrow
    exact ⟨row', hrow', hm.bound (hs.rows key row hrow)⟩
  controls := h.controls

theorem path_later (h : LaunchInv p.1 p.2) (hp : ((system L).traced (emit L)).Path System.free p p') :
    LaunchInv p'.1 p'.2 ∧ Later p.1.tables p'.1.tables := by
  refine hp.keeps (I := fun q => LaunchInv q.1 q.2 ∧ Later p.1.tables q.1.tables) ?_ ⟨h, .refl _⟩
  rintro q a ⟨hq, hlater⟩ -
  exact ⟨launchInv_step q a hq, hlater.trans ((step_moves q.1 a).later hq.recorded.sound)⟩

/-- An attempt is launched at most once, each step of its launch under the authority that its own
transaction found, and nothing it binds is ever bound to anything else. -/
theorem launched_once (h : ((system L).traced (emit L)).Reach System.free (s, log))
    (hp : ((system L).traced (emit L)).Path System.free (s, log) (s', log')) :
    Justified Launches log ∧ (log.filterMap spawned?).Nodup ∧
      (log.filterMap launched?).Nodup ∧ s.tables.Sound ∧ Later s.tables s'.tables := by
  have hs : LaunchInv s log := launchInv_reach h
  refine ⟨hs.justified, hs.justified.nodup ?_, hs.justified.nodup ?_, hs.recorded.sound,
    (path_later (p := (s, log)) hs hp).2⟩
  · intro before e k hj hk
    cases e <;> cases hk
    exact hj.1
  · intro before e k hj hk
    cases e <;> cases hk
    exact hj.1

namespace Sample

/-! One attempt, its control and its activation. -/

def leaf : Json → String
  | .str text => text
  | .object ((_, value) :: _) => leaf value
  | .list (value :: _) => leaf value
  | _ => ""

def library : Library where
  whitespace c := c = ' '
  encoded := leaf
  sha256 text := text

def binding : Binding := ⟨"m", "c", "a", "k", "1", "o", .subscriptionOnly, []⟩

def manifest : HostManifest := .model ⟨"a1", 1, .worker, "p", 1, "auth", "budget", [], binding⟩

def preparation : Preparation where
  manifest := manifest
  start_key := "k1"
  spec := ⟨["tool"], "/w", some 30⟩
  directory := some "/w"
  nonce := "n"
  before_nonce := .ok ()
  before_write := .ok ()

def activation : Activation := ⟨"act", "a1", 1, "auth", "budget", some 9⟩

def world : World := ⟨0, some ⟨1, "b"⟩, true, false, some 0⟩

def spawned : List Action :=
  [.prepare preparation, .setControl "a1" ⟨1, "auth", true⟩, .start "k1" activation 0,
    .advanceStart 0 world, .advanceStart 0 world]

def launched : List Action :=
  spawned ++ [.advanceSupervisor 0 world, .advanceSupervisor 0 world, .advanceSupervisor 0 world]

def after (actions : List Action) : State × List Event :=
  ((system library).traced (emit library)).run (State.empty, []) actions

theorem after_reach (actions : List Action) :
    ((system library).traced (emit library)).Reach System.free (after actions) :=
  ⟨(State.empty, []), ⟨rfl, rfl⟩, .of_free_run⟩

end Sample

/-- One attempt is launched. -/
theorem launched_once_sample : ∃ (s : State) (log : List Event), log.filterMap launched? = ["k1"] ∧
    Justified Launches log ∧ (log.filterMap spawned?).Nodup ∧
      (log.filterMap launched?).Nodup ∧ s.tables.Sound ∧ Later s.tables s.tables := by
  have hlaunched : (Sample.after Sample.launched).2.filterMap launched? = ["k1"] := by
    decide +kernel
  exact ⟨_, _, hlaunched, launched_once (Sample.after_reach Sample.launched) .refl⟩

end Karajan.Execution
