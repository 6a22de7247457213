import Karajan.Workflows.DeploymentLaws

/-!
# Activations

What a slot is for is a register that deployments are written to on condition
of its revision. Every run of the commands is a run of that register, whatever
their interleaving; what the register accepted is what the ledger, the stored
intents and the slot's own row say was activated.
-/

namespace Karajan.Workflows

open List Dict Check
variable {t t' : Tables}

-- A slot as a register

def Tables.activated (t : Tables) (slot : SlotKey) : List Deployment :=
  (t.deployments.filter fun place _ => place.1 = slot).values

abbrev SlotRegister := Register Deployment Deployment.expected_active_revision

structure Follows (t : Tables) (slot : SlotKey) (r : SlotRegister) : Prop where
  accepted : t.activated slot = r.accepted
  revision : t.slotRevision slot = r.revision
  active : (t.slots.get? slot).map SlotRow.deployment_id = r.accepted.getLast?.map Deployment.deployment_id

structure Activation (key : CommandKey) (record : Deployment) (t t' : Tables) : Prop where
  carries : ∃ terms, Held t key terms ∧ record.Carries terms
  fresh : t.commands.get? key = none
  new : t.deployments.get? record.place = none
  expected : t.slotRevision record.slotKey = record.expected_active_revision
  deployments : t'.deployments = t.deployments.put record.place record
  ledger : ∃ row accepted, t'.commands.get? key = some row ∧ row.result = .deployed accepted ∧
    accepted.deployment = record
  slots : ∃ row, t'.slots = t.slots.put record.slotKey row ∧
    row.slot_revision = record.expected_active_revision + 1 ∧
    row.deployment_id = record.deployment_id

theorem Move.activation (hm : Move key t t') : (t'.deployments = t.deployments ∧ t'.slots = t.slots) ∨
      ∃ record, Activation key record t t' := by
  cases hm with
  | @activated _ _ intent noted record accepted row stored same fresh new expected carries result
      revision active =>
    exact .inr ⟨record, ⟨intent.toTerms, ⟨intent, stored, rfl⟩, carries⟩, fresh, new, expected, rfl,
      ⟨_, accepted, get?_put_self, rfl, result⟩, row, rfl, revision, active⟩
  | _ => exact .inl ⟨rfl, rfl⟩

theorem mem_activated : record ∈ t.activated slot ↔
    ∃ place, place.1 = slot ∧ t.deployments.get? place = some record := by
  simp only [Tables.activated, mem_values, get?_filter, decide_eq_true_eq]
  exact exists_congr fun _ => and_comm

theorem slotRevision_congr (h : t'.slots = t.slots) : t'.slotRevision slot = t.slotRevision slot := by
  rw [Tables.slotRevision, h, ← Tables.slotRevision]

theorem activated_congr (h : t'.deployments = t.deployments) : t'.activated slot = t.activated slot := by
  rw [Tables.activated, h, ← Tables.activated]

namespace Activation

variable (h : Activation key record t t')
include h

theorem entries : t'.deployments.entries = t.deployments.entries ++ [(record.place, record)] := by
  rw [h.deployments, Dict.entries_put_new h.new]

theorem activated_self : t'.activated record.slotKey = t.activated record.slotKey ++ [record] := by
  simp [Tables.activated, Dict.values, Dict.filter, h.entries, Deployment.place]

theorem activated_other (hne : record.slotKey ≠ slot) : t'.activated slot = t.activated slot := by
  simp [Tables.activated, Dict.values, Dict.filter, h.entries, Deployment.place, hne]

theorem revision_self : t'.slotRevision record.slotKey = t.slotRevision record.slotKey + 1 := by
  obtain ⟨row, hslots, hrevision, -⟩ := h.slots
  rw [slotRevision_congr (t := { t with slots := t.slots.put record.slotKey row }) hslots,
    slotRevision_put, if_pos rfl, hrevision, h.expected]

theorem revision_other (hne : record.slotKey ≠ slot) : t'.slotRevision slot = t.slotRevision slot := by
  obtain ⟨row, hslots, -, -⟩ := h.slots
  rw [slotRevision_congr (t := { t with slots := t.slots.put record.slotKey row }) hslots,
    slotRevision_put, if_neg hne]

end Activation

theorem Move.follows (hm : Move key t t') (h : Follows t slot r) :
    Follows t' slot r ∨ ∃ record, Follows t' slot (r.write record) := by
  rcases hm.activation with ⟨hdeployments, hslots⟩ | ⟨record, ha⟩
  · exact .inl ⟨activated_congr hdeployments ▸ h.accepted, slotRevision_congr hslots ▸ h.revision,
      hslots ▸ h.active⟩
  · obtain ⟨row, hslots, -, hactive⟩ := ha.slots
    by_cases hs : record.slotKey = slot
    · subst hs
      have hexpected : record.expected_active_revision = r.revision := by
        rw [← ha.expected, h.revision]
      refine .inr ⟨record, ?_⟩
      rw [Register.write_accepted hexpected]
      refine ⟨by rw [ha.activated_self, h.accepted]; rfl, ?_, ?_⟩
      · rw [ha.revision_self, h.revision, Register.revision_accept]
      · simp [hslots, Register.accept, hactive]
    · refine .inl ⟨ha.activated_other hs ▸ h.accepted, ha.revision_other hs ▸ h.revision, ?_⟩
      rw [hslots, get?_put_of_ne hs]
      exact h.active

-- The ledger and the deployments

def Finished (t : Tables) (key : CommandKey) (record : Deployment) : Prop :=
  ∃ row accepted, t.commands.get? key = some row ∧ row.result = .deployed accepted ∧
    accepted.deployment = record

/-- Deployments are kept under their own place, each as the result of a finished
command, and a finished command's deployment is the one its intent named. -/
structure Recorded (t : Tables) : Prop where
  placed : ∀ place record, t.deployments.get? place = some record → place = record.place
  finished : ∀ place record, t.deployments.get? place = some record → ∃ key, Finished t key record
  named : ∀ key record, Finished t key record → ∃ terms, Held t key terms ∧ record.Carries terms

theorem Move.finished (hm : Move key t t') (h : Finished t other record) : Finished t' other record := by
  obtain ⟨row, accepted, hrow, hresult, hrecord⟩ := h
  have hput : ∀ {row'}, (t.commands.get? key = none ∨
      ∀ row, t.commands.get? key = some row → row.result = .other) →
      (t.commands.put key row').get? other = some row := by
    intro row' hother
    have hne : key ≠ other := by
      rintro rfl
      rcases hother with hnone | hforeign
      · rw [hnone] at hrow; cases hrow
      · rw [hforeign row hrow] at hresult; cases hresult
    rw [get?_put_of_ne hne, hrow]
  cases hm with
  | ledger foreign => exact ⟨row, accepted, hput (.inr foreign), hresult, hrecord⟩
  | activated _ _ fresh => exact ⟨row, accepted, hput (.inl fresh), hresult, hrecord⟩
  | _ => exact ⟨row, accepted, hrow, hresult, hrecord⟩

theorem Move.finished_back (hm : Move key t t') (h : Finished t' other record) :
    Finished t other record ∨ other = key ∧ Activation key record t t' := by
  obtain ⟨row, accepted, hrow, hresult, hrecord⟩ := h
  cases hm with
  | idle => exact .inl ⟨row, accepted, hrow, hresult, hrecord⟩
  | begun => exact .inl ⟨row, accepted, hrow, hresult, hrecord⟩
  | noted => exact .inl ⟨row, accepted, hrow, hresult, hrecord⟩
  | ledger =>
    rcases of_put hrow with ⟨-, rfl⟩ | ⟨-, hrow⟩
    · cases hresult
    · exact .inl ⟨row, accepted, hrow, hresult, hrecord⟩
  | @activated _ digest intent noted activated accepted' slotRow stored same fresh new expected
      carries result revision active =>
    rcases of_put hrow with ⟨hk, rfl⟩ | ⟨-, hrow⟩
    · cases hresult
      subst hrecord result
      exact .inr ⟨hk.symm, ⟨intent.toTerms, ⟨intent, stored, rfl⟩, carries⟩, fresh, new, expected,
        rfl, ⟨_, accepted, get?_put_self, rfl, rfl⟩, slotRow, rfl, revision, active⟩
    · exact .inl ⟨row, accepted, hrow, hresult, hrecord⟩

theorem Move.recorded (hm : Move key t t') (h : Recorded t) : Recorded t' := by
  have hnamed : ∀ other record, Finished t' other record →
      ∃ terms, Held t' other terms ∧ record.Carries terms := by
    intro other record hf
    rcases hm.finished_back hf with hf | ⟨rfl, ha⟩
    · obtain ⟨terms, hheld, hcarries⟩ := h.named _ _ hf
      exact ⟨terms, hm.held hheld, hcarries⟩
    · obtain ⟨terms, hheld, hcarries⟩ := ha.carries
      exact ⟨terms, hm.held hheld, hcarries⟩
  rcases hm.activation with ⟨hdeployments, -⟩ | ⟨record, ha⟩
  · refine ⟨fun place record hr => h.placed place record (hdeployments ▸ hr), ?_, hnamed⟩
    intro place record hr
    obtain ⟨other, hf⟩ := h.finished place record (hdeployments ▸ hr)
    exact ⟨other, hm.finished hf⟩
  · have hcases : ∀ place other, t'.deployments.get? place = some other →
        place = record.place ∧ other = record ∨ t.deployments.get? place = some other := by
      intro place other hr
      rw [ha.deployments, get?_put] at hr
      split at hr
      case isTrue hp => cases hr; exact .inl ⟨hp.symm, rfl⟩
      · exact .inr hr
    refine ⟨fun place other hr => ?_, fun place other hr => ?_, hnamed⟩
    · rcases hcases place other hr with ⟨rfl, rfl⟩ | hr
      · rfl
      · exact h.placed place other hr
    · rcases hcases place other hr with ⟨-, rfl⟩ | hr
      · exact ⟨key, ha.ledger⟩
      · obtain ⟨owner, hf⟩ := h.finished place other hr
        exact ⟨owner, hm.finished hf⟩

-- Runs

structure Coherent (s : State) : Prop where
  recorded : Recorded s.tables
  slots : ∀ slot, ∃ r, Follows s.tables slot r
  grounded : ∀ attempt ∈ s.attempts, attempt.stage.Grounded s.tables attempt.key

def Acts (s : State) (a : Action) (key : CommandKey) : Prop :=
  ∃ index w attempt, a = .advance index w ∧ s.attempts[index]? = some attempt ∧ attempt.key = key

def Activates (D : Digests) (s : State) (a : Action) (key : CommandKey) (record : Deployment) : Prop :=
  Acts s a key ∧ ∃ place, s.tables.deployments.get? place = none ∧
    (s.step D a).tables.deployments.get? place = some record

theorem Acts.unique (h : Acts s a key) (h' : Acts s a key') : key = key' := by
  obtain ⟨index, w, attempt, ha, hattempt, rfl⟩ := h
  obtain ⟨index', w', attempt', ha', hattempt', rfl⟩ := h'
  rw [ha] at ha'
  cases ha'
  rw [hattempt] at hattempt'
  cases hattempt'
  rfl

theorem useLedger_move (t : Tables) (key : CommandKey) (digest : String) :
    Move key t (t.useLedger key digest) := by
  unfold Tables.useLedger
  split
  · exact .idle
  case h_2 hother =>
    refine .ledger fun row hrow => ?_
    cases hresult : row.result with
    | other => rfl
    | deployed accepted => exact absurd (hresult ▸ hrow) (hother row.digest accepted)

theorem crash_grounded {attempt : Attempt} (h : attempt.stage.Grounded t attempt.key) :
    (attempt.crash controller).stage.Grounded t (attempt.crash controller).key := by
  unfold Attempt.crash
  split
  · exact h
  · split
    · trivial
    · exact h

theorem call_grounded {call : Call} : call.stage.Grounded t key := by
  cases call <;> trivial

section
variable (hc : Coherent s) (a : Action)
include hc a

theorem step_move : ∃ key, Move key s.tables (s.step D a).tables ∧
      (Acts s a key ∨ (s.step D a).tables.deployments = s.tables.deployments) := by
  cases a with
  | submit controller key call => exact ⟨key, .idle, .inr rfl⟩
  | crash controller => exact ⟨⟨"", ""⟩, .idle, .inr rfl⟩
  | disturb place found => cases found <;> exact ⟨⟨"", ""⟩, .idle, .inr rfl⟩
  | ledger key digest =>
    refine ⟨key, useLedger_move s.tables key digest, .inr ?_⟩
    show (s.tables.useLedger key digest).deployments = _
    unfold Tables.useLedger
    split <;> rfl
  | advance index w =>
    simp only [State.step, State.advance]
    cases hattempt : s.attempts[index]? with
    | none => exact ⟨⟨"", ""⟩, .idle, .inr rfl⟩
    | some attempt =>
      have hg := hc.grounded attempt (mem_of_getElem? hattempt)
      exact ⟨attempt.key, (advance_spec hg).1, .inl ⟨index, w, attempt, rfl, hattempt, rfl⟩⟩

theorem step_grounded :
    ∀ attempt ∈ (s.step D a).attempts, attempt.stage.Grounded (s.step D a).tables attempt.key := by
  obtain ⟨key, hmove, -⟩ := step_move (D := D) hc a
  have hkept : ∀ attempt ∈ s.attempts,
      attempt.stage.Grounded (s.step D a).tables attempt.key := fun attempt hm =>
    (hc.grounded attempt hm).move hmove
  intro attempt hm
  cases a with
  | submit controller key call =>
    rcases List.mem_append.mp hm with hm | hm
    · exact hkept attempt hm
    · rw [List.mem_singleton.mp hm]
      exact call_grounded
  | crash controller =>
    obtain ⟨before, hbefore, rfl⟩ := List.mem_map.mp hm
    exact crash_grounded (hkept before hbefore)
  | disturb place found =>
    have hsame : (s.step D (.disturb place found)).attempts = s.attempts := by cases found <;> rfl
    exact hkept attempt (hsame ▸ hm)
  | ledger => exact hkept attempt hm
  | advance index w =>
    revert hm hkept
    simp only [State.step, State.advance]
    cases hattempt : s.attempts[index]? with
    | none => exact fun hkept hm => hkept attempt hm
    | some mine =>
      intro hkept hm
      have hg := hc.grounded mine (mem_of_getElem? hattempt)
      rcases mem_or_eq_of_mem_set hm with hm | rfl
      · exact hkept attempt hm
      · exact (advance_spec hg).2

theorem Coherent.step : Coherent (s.step D a) := by
  obtain ⟨key, hmove, -⟩ := step_move (D := D) hc a
  refine ⟨hmove.recorded hc.recorded, fun slot => ?_, step_grounded hc a⟩
  obtain ⟨r, hr⟩ := hc.slots slot
  rcases hmove.follows hr with hsame | ⟨record, hwritten⟩
  · exact ⟨r, hsame⟩
  · exact ⟨r.write record, hwritten⟩

end

theorem coherent_empty : Coherent State.empty := by
  refine ⟨⟨?_, ?_, ?_⟩, fun slot => ⟨.empty, rfl, rfl, rfl⟩, ?_⟩
  · rintro place record ⟨⟩
  · rintro place record ⟨⟩
  · rintro key record ⟨row, accepted, ⟨⟩, -⟩
  · rintro attempt ⟨⟩

open Karajan.System (free)

theorem Coherent.of_reach (h : (system D).Reach free s) : Coherent s :=
  h.invariant (fun _ hi => hi ▸ coherent_empty) fun _ a hc _ => hc.step a

theorem slot_simulates (hc : Coherent s) (hr : Follows s.tables slot r)
    (h : (system D).Path free s s') : Coherent s' ∧
      ∃ r', (Register.system Deployment _).Path free r r' ∧ Follows s'.tables slot r' := by
  induction h with
  | refl => exact ⟨hc, r, .refl, hr⟩
  | @step s' a _ _ ih =>
    obtain ⟨hc', r', hpath, hr'⟩ := ih
    refine ⟨hc'.step a, ?_⟩
    obtain ⟨key, hmove, -⟩ := step_move (D := D) hc' a
    rcases hmove.follows hr' with hsame | ⟨record, hwritten⟩
    · exact ⟨r', hpath, hsame⟩
    · exact ⟨r'.write record, hpath.step trivial, hwritten⟩

theorem slotRevision_le_path (slot : SlotKey) (hc : Coherent s) (h : (system D).Path free s s') :
    s.tables.slotRevision slot ≤ s'.tables.slotRevision slot := by
  obtain ⟨r, hr⟩ := hc.slots slot
  obtain ⟨-, r', hpath, hr'⟩ := slot_simulates hc hr h
  rw [hr.revision, hr'.revision]
  exact Register.revision_le_path hpath

theorem tables_path {I : Tables → Prop} (hkeep : ∀ key t t', Move key t t' → I t → I t')
    (hc : Coherent s) (h : (system D).Path free s s') (hs : I s.tables) : I s'.tables := by
  have hkept : Coherent s' ∧ I s'.tables := h.keeps (I := fun s => Coherent s ∧ I s.tables) (fun s a hs _ => by
      obtain ⟨key, hmove, -⟩ := step_move (D := D) hs.1 a
      exact ⟨hs.1.step a, hkeep key _ _ hmove hs.2⟩) ⟨hc, hs⟩
  exact hkept.2

/-- What holds of the slots, the intents and the ledger in a state, at its next
step and in every run from it. -/
structure Protocol (D : Digests) (s : State) : Prop where
  /-- A slot's revision is the number of deployments activated on it. -/
  counted : ∀ slot, s.tables.slotRevision slot = (s.tables.activated slot).length
  /-- Every step activates one more and raises the revision by one, or changes neither. -/
  grows : ∀ a slot, (∃ key record, Activates D s a key record ∧ record.slotKey = slot ∧
      (s.step D a).tables.activated slot = s.tables.activated slot ++ [record] ∧
      (s.step D a).tables.slotRevision slot = s.tables.slotRevision slot + 1) ∨
    ((s.step D a).tables.activated slot = s.tables.activated slot ∧
      (s.step D a).tables.slotRevision slot = s.tables.slotRevision slot)
  /-- A step activates one deployment, under one key. -/
  alone : ∀ a key record key' record', Activates D s a key record → Activates D s a key' record' →
    key' = key ∧ record' = record
  /-- No two activated deployments of a slot expected one revision. -/
  distinct : ∀ slot, ∀ record ∈ s.tables.activated slot, ∀ record' ∈ s.tables.activated slot,
    record.expected_active_revision = record'.expected_active_revision → record = record'
  /-- What a command activates is what its stored intent named, from the revision it expected. -/
  named : ∀ a key record, Activates D s a key record → ∃ intent,
    s.tables.intents.get? key = some intent ∧ intent.deployment_id = record.deployment_id ∧
    intent.slotKey = record.slotKey ∧
    intent.expected_active_revision = record.expected_active_revision ∧
    record.expected_active_revision = s.tables.slotRevision record.slotKey
  /-- No later step activates again under the key, or from the expected revision. -/
  once : ∀ a key record s' b key' record', Activates D s a key record →
    (system D).Path free (s.step D a) s' → Activates D s' b key' record' →
    key' ≠ key ∧ (record'.slotKey = record.slotKey →
      record'.expected_active_revision ≠ record.expected_active_revision)
  /-- The active deployment is there, with the identity its command's intent froze. -/
  active : ∀ slot row, s.tables.slots.get? slot = some row → ∃ key record intent,
    s.tables.deployments.get? (slot, row.deployment_id) = some record ∧
    Finished s.tables key record ∧ s.tables.intents.get? key = some intent ∧
    intent.deployment_id = row.deployment_id ∧ record.load_receipt.Matches intent.frozen
  /-- A command answered with a conflict once its slot was past the revision it
  expected never activates. -/
  passed : ∀ attempt ∈ s.attempts, ∀ error current,
    attempt.stage = .answered (.error error) → error.conflict? = some current →
    ∃ intent, s.tables.intents.get? attempt.key = some intent ∧
      (intent.expected_active_revision < current → ∀ s' a record,
        (system D).Path free s s' → ¬ Activates D s' a attempt.key record)

theorem active_recorded (hc : Coherent s) (hrow : s.tables.slots.get? slot = some row) :
    ∃ record, s.tables.deployments.get? (slot, row.deployment_id) = some record := by
  obtain ⟨r, hr⟩ := hc.slots slot
  have hlast := hr.active
  rw [hrow, Option.map_some] at hlast
  obtain ⟨record, hrecord, hid⟩ := Option.map_eq_some_iff.mp hlast.symm
  have hm : record ∈ s.tables.activated slot := by
    rw [hr.accepted]
    exact mem_of_getLast? hrecord
  obtain ⟨place, hslot, hget⟩ := mem_activated.mp hm
  cases hc.recorded.placed place record hget
  refine ⟨record, ?_⟩
  rw [← hslot, ← hid]
  exact hget

theorem Coherent.grows (hc : Coherent s) (a : Action) (slot : SlotKey) :
    (∃ key record, Activates D s a key record ∧ record.slotKey = slot ∧
      (s.step D a).tables.activated slot = s.tables.activated slot ++ [record] ∧
      (s.step D a).tables.slotRevision slot = s.tables.slotRevision slot + 1) ∨
    ((s.step D a).tables.activated slot = s.tables.activated slot ∧
      (s.step D a).tables.slotRevision slot = s.tables.slotRevision slot) := by
  obtain ⟨key, hmove, hwho⟩ := step_move (D := D) hc a
  rcases hmove.activation with ⟨hdeployments, hslots⟩ | ⟨record, ha⟩
  · exact .inr ⟨activated_congr hdeployments, slotRevision_congr hslots⟩
  · by_cases hs : record.slotKey = slot
    · subst hs
      have hadded : (s.step D a).tables.deployments.get? record.place = some record := by
        rw [ha.deployments, get?_put_self]
      have hacts : Acts s a key := by
        rcases hwho with hacts | hsame
        · exact hacts
        · rw [hsame, ha.new] at hadded
          cases hadded
      exact .inl ⟨key, record, ⟨hacts, record.place, ha.new, hadded⟩, rfl, ha.activated_self, ha.revision_self⟩
    · exact .inr ⟨ha.activated_other hs, ha.revision_other hs⟩

section
variable (hc : Coherent s) (h : Activates D s a key record)
include hc h

theorem Activates.activation : Activation key record s.tables (s.step D a).tables := by
  obtain ⟨hacts, place, hnone, hsome⟩ := h
  obtain ⟨other, hmove, hwho⟩ := step_move (D := D) hc a
  have hadded : (s.step D a).tables.deployments ≠ s.tables.deployments := by
    intro heq
    rw [heq, hnone] at hsome
    cases hsome
  have hkey : other = key := by
    rcases hwho with hwho | hsame
    · exact hwho.unique hacts
    · exact absurd hsame hadded
  subst hkey
  rcases hmove.activation with ⟨hsame, -⟩ | ⟨activated, ha⟩
  · exact absurd hsame hadded
  · rw [ha.deployments, get?_put] at hsome
    split at hsome
    · cases hsome; exact ha
    · rw [hnone] at hsome; cases hsome

-- The protocol

theorem Activates.expected (hheld : Held s.tables key terms) :
    record.slotKey = terms.slotKey ∧ s.tables.slotRevision terms.slotKey = terms.expected_active_revision := by
  have ha := h.activation hc
  obtain ⟨terms', hheld', hcarries⟩ := ha.carries
  cases hheld.unique hheld'
  exact ⟨hcarries.slot, by rw [← hcarries.slot, ha.expected, hcarries.expected]⟩

theorem Coherent.alone (h' : Activates D s a key' record') : key' = key ∧ record' = record := by
  have ha := h.activation hc
  have ha' := h'.activation hc
  have hadded : (s.step D a).tables.deployments.get? record'.place = some record' := by
    rw [ha'.deployments, get?_put_self]
  refine ⟨h'.1.unique h.1, ?_⟩
  rw [ha.deployments, get?_put] at hadded
  split at hadded
  · cases hadded; rfl
  · rw [ha'.new] at hadded; cases hadded

theorem Coherent.once (hpath : (system D).Path free (s.step D a) s') (h' : Activates D s' b key' record') :
    key' ≠ key ∧ (record'.slotKey = record.slotKey →
      record'.expected_active_revision ≠ record.expected_active_revision) := by
  have hc' := hc.step (D := D) a
  have hlater := (slot_simulates hc' (hc'.slots record.slotKey).choose_spec hpath).1
  have ha := h.activation hc
  have ha' := h'.activation hlater
  refine ⟨?_, fun hslot => ?_⟩
  · rintro rfl
    -- the ledger still has the first result, and the second activation found none
    obtain ⟨row, -, hrow, -⟩ := tables_path (fun _ _ _ hm hf => hm.finished hf) hc' hpath ha.ledger
    rw [ha'.fresh] at hrow
    cases hrow
  · have hle := slotRevision_le_path record.slotKey hc' hpath
    rw [ha.revision_self, ha.expected, ← hslot, ha'.expected] at hle
    omega

end

theorem Coherent.passed {attempt : Attempt} (hc : Coherent s) (hm : attempt ∈ s.attempts)
    (hstage : attempt.stage = .answered (.error error)) (hconflict : error.conflict? = some current) :
    ∃ intent, s.tables.intents.get? attempt.key = some intent ∧
      (intent.expected_active_revision < current → ∀ s' a record,
        (system D).Path free s s' → ¬ Activates D s' a attempt.key record) := by
  have hg := hc.grounded attempt hm
  rw [hstage] at hg
  obtain ⟨terms, ⟨intent, hintent, rfl⟩, -, hcurrent⟩ := hg current hconflict
  refine ⟨intent, hintent, fun hbehind s' a record hpath hactivates => ?_⟩
  have hlater := (slot_simulates hc (hc.slots intent.slotKey).choose_spec hpath).1
  have hheld := tables_path (fun _ _ _ hmove hheld => hmove.held hheld) hc hpath
    (⟨intent, hintent, rfl⟩ : Held s.tables attempt.key intent.toTerms)
  -- the slot is past what the intent expects, and it never goes back
  obtain ⟨-, hexpected⟩ := hactivates.expected hlater hheld
  have hle := slotRevision_le_path intent.slotKey hc hpath
  omega

theorem deployment_protocol (h : (system D).Reach free s) : Protocol D s := by
  have hc := Coherent.of_reach h
  refine ⟨fun slot => ?_, hc.grows, fun _ _ _ _ _ ha ha' => hc.alone ha ha', fun slot => ?_,
    fun a key record ha => ?_,
    fun a key record s' b key' record' ha hpath => hc.once ha hpath, fun slot row hrow => ?_,
    fun attempt hm error current => hc.passed hm⟩
  · obtain ⟨r, hr⟩ := hc.slots slot
    rw [hr.revision, hr.accepted]
    rfl
  · obtain ⟨r, hr⟩ := hc.slots slot
    rw [hr.accepted]
    exact fun record hm record' hm' => Register.eq_of_expects hm hm'
  · have hactivation := ha.activation hc
    obtain ⟨terms, ⟨intent, hintent, rfl⟩, hcarries⟩ := hactivation.carries
    exact ⟨intent, hintent, hcarries.deployment.symm, hcarries.slot.symm, hcarries.expected.symm,
      hactivation.expected.symm⟩
  · obtain ⟨record, hrecord⟩ := active_recorded hc hrow
    obtain ⟨key, hf⟩ := hc.recorded.finished _ _ hrecord
    obtain ⟨terms, ⟨intent, hintent, rfl⟩, hcarries⟩ := hc.recorded.named _ _ hf
    have hplace := hc.recorded.placed _ _ hrecord
    refine ⟨key, record, intent, hrecord, hf, hintent, ?_, hcarries.receipt⟩
    rw [← hcarries.deployment]
    exact (congrArg Prod.snd hplace).symm

def Stage.conflict? : Stage → Option Nat
  | .answered (.error error) => error.conflict?
  | _ => none

theorem Stage.conflict?_eq_some {stage : Stage} : stage.conflict? = some current ↔
    ∃ error, stage = .answered (.error error) ∧ error.conflict? = some current := by
  unfold Stage.conflict?
  split
  case h_1 error => simp
  case h_2 hother => simpa using fun error h => absurd h (hother error)

namespace Sample

/-! One published revision and one build, whose digest spells a value out. -/

mutual

def spell : Json → List Char
  | .str text => text.toList ++ ['.']
  | .int n => replicate n.natAbs '|' ++ ['.']
  | .list items => spellItems items
  | _ => []

def spellItems : List Json → List Char
  | [] => []
  | item :: rest => spell item ++ spellItems rest

end

def digests : Digests where
  content value := String.ofList (spell value)
  receipt receipt := receipt.deployment_id
  deployment record := record.deployment_id

def compiled : CompiledWorkflow := ⟨"t", "c", 1, ["k@1"], [], ["k@1"], []⟩

def world (uuid : String) : World where
  refusal := none
  commit := .durable
  now := 0
  head := some 1
  published := .ok ⟨"n", "report", "b", "m", "t", "c", 1, [⟨"f", "d", 1⟩], .empty, "v"⟩
  uuid
  untrusted := none
  source := .ok ⟨[⟨"f", "d", 1⟩], "b", "m", "m"⟩
  copyError := none
  build := ⟨fun _ _ => .ok compiled, .ofList [("k@1", ⟨true, true, ["e"]⟩)]⟩
  process_id := 1
  bundleRow := some ⟨"r", "r", "report"⟩

def defaultSlot : SlotKey := ⟨"p", "default"⟩

def owner (key : String) : CommandKey := ⟨"owner", key⟩

def command (key : String) (expected : Nat) : Action :=
  .submit 1 (owner key) (.deploy ⟨"p", "n", "w", 1, "v", "default", expected⟩)

def steps (index n : Nat) (uuid : String) : List Action := replicate n (.advance index (world uuid))

/-- The first command expects a revision the slot does not have yet. -/
def early : List Action := command "2" 1 :: steps 0 9 "x"

/-- Another command gives the slot that revision, and the first one is submitted
again, up to its activation. -/
def resumed : List Action := command "1" 0 :: steps 1 8 "y" ++ command "2" 1 :: steps 2 5 "z"

def after (actions : List Action) : State := (system digests).run .empty actions

theorem after_reach (actions : List Action) : (system digests).Reach free (after actions) :=
  ⟨.empty, rfl, .of_free_run⟩

end Sample

open Sample (digests defaultSlot early resumed steps after after_reach world owner)

/-- Two commands activate in turn. -/
theorem deployment_protocol_activated : ∃ s, Protocol digests s ∧ s.tables.slotRevision defaultSlot = 2 := by
  let actions := early ++ resumed ++ steps 2 1 "z"
  refine ⟨after actions, deployment_protocol (after_reach actions), ?_⟩
  decide +kernel

/-- A command that expected revision 1 of an empty slot is answered with a
conflict. It activates when it is submitted again after another deployment. -/
theorem conflict_then_activated : ∃ s s' a attempt error record, (system digests).Reach free s ∧
      attempt ∈ s.attempts ∧ attempt.stage = .answered (.error error) ∧
      error.conflict? = some 0 ∧ (system digests).Path free s s' ∧
      Activates digests s' a attempt.key record := by
  let s := after early
  let s' := (system digests).run s resumed
  let a : Action := .advance 2 (world "z")
  have hanswer : s.attempts[0]?.any (fun attempt =>
      attempt.key = owner "2" && attempt.stage.conflict? = some 0) = true := by decide +kernel
  have hagain : s'.attempts[2]?.any (fun attempt => attempt.key = owner "2") = true := by
    decide +kernel
  have hnew : (s'.tables.deployments.get? (defaultSlot, "x")).isNone = true := by
    decide +kernel
  have hadded : ((s'.step digests a).tables.deployments.get?
      (defaultSlot, "x")).isSome = true := by decide +kernel
  obtain ⟨attempt, hattempt, hanswered⟩ := (Option.any_eq_true ..).mp hanswer
  obtain ⟨again, hgain, hkey⟩ := (Option.any_eq_true ..).mp hagain
  obtain ⟨record, hrecord⟩ := Option.isSome_iff_exists.mp hadded
  simp only [Bool.and_eq_true, decide_eq_true_eq] at hanswered hkey
  obtain ⟨error, hstage, hconflict⟩ := Stage.conflict?_eq_some.mp hanswered.2
  refine ⟨s, s', a, attempt, error, record, after_reach _, mem_of_getElem? hattempt,
    hstage, hconflict, .of_free_run, ⟨2, _, again, rfl, hgain, ?_⟩, _, ?_, hrecord⟩
  · rw [hkey, hanswered.1]
  · exact Option.isNone_iff_eq_none.mp hnew

end Karajan.Workflows
