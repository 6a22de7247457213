import Mathlib.Data.List.Pairwise
import Karajan.Reviewing.System

/-!
# What the ledger keeps

A transaction adds a row that clashes with none, or edits one row in one of
three ways. What is recorded stays; the launch stays where a snapshot that is
merged carries the one that is there.
-/

namespace Karajan.Reviewing

open List Check
variable {row row' : Row} {v v' v'' : Intent}

-- Reading

structure Row.Sound (lib : Library) (row : Row) : Prop where
  binds : row.binds = true
  digest : row.intent.intent_digest = lib.digest (.intent row.intent.toIntentBody)
  start : row.intent.start_key = startKey row.intent.reviewer_operation_id
  cancelled : row.intent.cancel_requested = true ↔ row.intent.phase = .cancellationPending

structure LedgerSound (lib : Library) (l : Ledger) : Prop where
  rows : ∀ row ∈ l, row.Sound lib
  apart : l.Pairwise fun row row' => row.clashes row' = false

theorem clashes_comm (row row' : Row) : row.clashes row' = row'.clashes row := by
  simp only [Row.clashes, eq_comm]

theorem LedgerSound.eq (h : LedgerSound lib l) (hrow : row ∈ l) (hrow' : row' ∈ l)
    (hclash : row.clashes row' = true) : row = row' := by
  by_contra hne
  have hsymm : Std.Symm fun row row' : Row => row.clashes row' = false :=
    ⟨fun x y hxy => (clashes_comm y x).trans hxy⟩
  have hapart := h.apart.forall hrow hrow' hne
  cases hclash.symm.trans hapart

theorem LedgerSound.eq_of_id (h : LedgerSound lib l) (hrow : row ∈ l) (hrow' : row' ∈ l)
    (hid : row.execution_id = row'.execution_id) : row = row' :=
  h.eq hrow hrow' (by simp [Row.clashes, hid])

theorem Row.Sound.id (h : row.Sound lib) : row.intent.execution_id = row.execution_id := by
  have hbinds := h.binds
  simp only [Row.binds, Bool.and_eq_true, decide_eq_true_eq] at hbinds
  exact hbinds.1.1.1.1.1

theorem decode_ok {ask : Option Ask} (h : decodeIntentRow lib row ask = .ok v) :
    v = row.intent ∧ ∀ a ∈ ask, v.ask = a := by
  simp only [decodeIntentRow, bind_ok, ensure_ok, pure_ok] at h
  obtain ⟨_, _, _, hask, rfl⟩ := h
  refine ⟨rfl, fun a ha => ?_⟩
  cases ha
  simp only [Option.all_some, Bool.and_eq_true, decide_eq_true_eq] at hask
  obtain ⟨⟨hrun, hoperation⟩, hprincipal⟩ := hask
  simp [Intent.ask, hrun, hoperation, hprincipal]

theorem decode_of_sound (h : row.Sound lib) : decodeIntentRow lib row none = .ok row.intent := by
  simp [decodeIntentRow, ensure, h.binds, ← h.digest, Bind.bind, Except.bind, Pure.pure, Except.pure]

theorem load_ok (h : load lib l ask = .ok (some v)) : ∃ row ∈ l, row.intent = v ∧ v.ask = ask := by
  unfold load at h
  split at h
  · cases h
  case h_2 row hfind =>
    obtain ⟨v', hdecode, heq⟩ := map_ok.mp h
    cases heq
    obtain ⟨rfl, hask⟩ := decode_ok hdecode
    refine ⟨row, ?_, rfl, hask ask rfl⟩
    rcases Option.or_eq_some_iff.mp hfind with hfind | ⟨-, hfind⟩
    · exact mem_of_find?_eq_some hfind
    · exact mem_of_find?_eq_some hfind

-- Writing

/-- What a transaction makes of an intent; a launch is merged where `ok` says so. -/
inductive Edit (ok : Intent → Launch → Prop) (v : Intent) : IntentBody → Prop
  | cancelled : Edit ok v { v with cancel_requested := true, phase := .cancellationPending }
  | frozen (launch : Launch) (hok : ok v launch) : Edit ok v { v with
      launch := some launch
      host_prepared_id := some v.start_key
      phase := if v.cancel_requested then v.phase else .hostPrepared }
  | claimed (runner : ProcessIdentity) (hcancel : v.cancel_requested = false)
      (hnone : v.effect_claim = none) : Edit ok v { v with
      effect_claim := some ⟨v.intent_digest, runner⟩
      phase := .observerClaimed }

inductive Moves (lib : Library) (ok : Intent → Launch → Prop) (l : Ledger) : Ledger → Prop
  | same : Moves lib ok l l
  | added (ask : Ask) (command_key : String) (facts : CompiledFacts) (source : ReviewerExecutionSource)
      (execution_id : String)
      (hnew : l.any (·.clashes (newRow ask command_key
        (newIntent lib (newIdentity ask command_key facts source execution_id)))) = false) :
      Moves lib ok l (l ++ [newRow ask command_key
        (newIntent lib (newIdentity ask command_key facts source execution_id))])
  | saved (row : Row) (hrow : row ∈ l) (body : IntentBody) (hedit : Edit ok row.intent body) :
      Moves lib ok l (save lib l body)

theorem Edit.identity (h : Edit ok v body) : body.toIdentity = v.toIdentity := by
  cases h <;> rfl

def Row.saved (lib : Library) (row : Row) (body : IntentBody) : Row :=
  { row with intent := Intent.sealed lib body, state := body.phase }

theorem save_eq (hs : LedgerSound lib l) (hrow : row ∈ l) (hid : body.execution_id = row.execution_id) :
    ∀ r, r ∈ save lib l body ↔ r = row.saved lib body ∨ r ∈ l ∧ r ≠ row := by
  intro r
  simp only [save, mem_map]
  constructor
  · rintro ⟨r₀, hr₀, rfl⟩
    by_cases hsame : r₀ = row
    · subst hsame
      simp [hid, Row.saved]
    · have hne : r₀.execution_id ≠ body.execution_id := fun heq => hsame (hs.eq_of_id hr₀ hrow (heq.trans hid))
      simp [hne, hr₀, hsame]
  · rintro (rfl | ⟨hr, hne⟩)
    · exact ⟨row, hrow, by simp [hid, Row.saved]⟩
    · have hne : r.execution_id ≠ body.execution_id := fun heq => hne (hs.eq_of_id hr hrow (heq.trans hid))
      exact ⟨r, hr, by simp [hne]⟩

theorem Edit.sound (h : Edit ok row.intent body) (hs : row.Sound lib) : (row.saved lib body).Sound lib := by
  have hidentity := h.identity
  have hbinds := hs.binds
  simp only [Row.binds, Bool.and_eq_true, decide_eq_true_eq] at hbinds
  obtain ⟨⟨⟨⟨⟨hid, hrun⟩, hoperation⟩, hprincipal⟩, hkey⟩, -⟩ := hbinds
  constructor
  case binds =>
    simp only [Row.binds, Row.saved, Intent.sealed, hidentity, hid, hrun, hoperation, hprincipal, hkey,
      decide_true, Bool.and_self]
  case digest => rfl
  case start =>
    show body.start_key = startKey body.reviewer_operation_id
    rw [hidentity]
    exact hs.start
  case cancelled =>
    show body.cancel_requested = true ↔ body.phase = .cancellationPending
    cases h with
    | cancelled => simp
    | frozen launch =>
      cases hcancel : row.intent.cancel_requested with
      | true => simpa [hcancel] using hs.cancelled
      | false => simp
    | claimed => simp [*]

theorem newRow_sound (ask : Ask) (command_key : String) (facts : CompiledFacts)
    (source : ReviewerExecutionSource) (execution_id : String) :
    (newRow ask command_key (newIntent lib (newIdentity ask command_key facts source execution_id))).Sound
      lib where
  binds := by simp [Row.binds, newRow, newIntent, newIdentity, Intent.sealed]
  digest := rfl
  start := rfl
  cancelled := by simp [newRow, newIntent, Intent.sealed]

structure Intent.Continues (v v' : Intent) : Prop where
  identity : v'.toIdentity = v.toIdentity
  binding_digest : v'.binding_digest = v.binding_digest
  host : ∀ prepared_id ∈ v.host_prepared_id, prepared_id ∈ v'.host_prepared_id
  launched : v.launch.isSome = true → v'.launch.isSome = true
  claim : ∀ claim ∈ v.effect_claim, claim ∈ v'.effect_claim
  cancelled : v.cancel_requested = true → v'.cancel_requested = true

theorem Intent.Continues.refl (v : Intent) : v.Continues v :=
  ⟨rfl, rfl, fun _ h => h, fun h => h, fun _ h => h, fun h => h⟩

theorem Intent.Continues.trans (h : v.Continues v') (h' : v'.Continues v'') : v.Continues v'' where
  identity := h'.identity.trans h.identity
  binding_digest := h'.binding_digest.trans h.binding_digest
  host := fun _ hprepared => h'.host _ (h.host _ hprepared)
  launched := fun hlaunched => h'.launched (h.launched hlaunched)
  claim := fun _ hclaim => h'.claim _ (h.claim _ hclaim)
  cancelled := fun hcancel => h'.cancelled (h.cancelled hcancel)

def Intent.Prepared (v : Intent) : Prop := ∀ prepared_id ∈ v.host_prepared_id, prepared_id = v.start_key

theorem Edit.continues (h : Edit ok v body) (hv : v.Prepared) : v.Continues (Intent.sealed lib body) := by
  have hrefl := Intent.Continues.refl v
  cases h with
  | cancelled => exact { hrefl with cancelled := fun _ => rfl }
  | frozen launch =>
    refine { hrefl with launched := fun _ => rfl, host := fun prepared_id hprepared => ?_ }
    rw [hv prepared_id hprepared]
    rfl
  | claimed runner hcancel hnone =>
    refine { hrefl with claim := fun claim hclaim => ?_ }
    rw [hnone] at hclaim
    cases hclaim

theorem Edit.prepared (h : Edit ok v body) (hv : v.Prepared) : (Intent.sealed lib body).Prepared := by
  cases h with
  | cancelled | claimed => exact hv
  | frozen launch =>
    intro prepared_id hprepared
    cases hprepared
    rfl

structure Row.Continues (row row' : Row) : Prop where
  keys : row'.execution_id = row.execution_id ∧ row'.run_id = row.run_id ∧
    row'.reviewer_operation_id = row.reviewer_operation_id ∧ row'.principal = row.principal ∧
    row'.command_key = row.command_key
  intent : row.intent.Continues row'.intent

section
variable (h : Moves lib ok l l') (hs : LedgerSound lib l)
include h hs

theorem Moves.sound : LedgerSound lib l' := by
  cases h with
  | same => exact hs
  | added ask command_key facts source execution_id hnew =>
    refine ⟨fun r hr => ?_, List.pairwise_append.mpr ⟨hs.apart, pairwise_singleton _ _, ?_⟩⟩
    · rcases List.mem_append.mp hr with hr | hr
      · exact hs.rows r hr
      · rw [List.mem_singleton.mp hr]
        exact newRow_sound ..
    · intro r hr r' hr'
      rw [List.mem_singleton.mp hr']
      simpa using List.any_eq_false.mp hnew r hr
  | saved row hrow body hedit =>
    have hid : body.execution_id = row.execution_id := by
      rw [hedit.identity]
      exact (hs.rows row hrow).id
    refine ⟨fun r hr => ?_, ?_⟩
    · rcases (save_eq hs hrow hid r).mp hr with rfl | ⟨hr, -⟩
      · exact hedit.sound (hs.rows row hrow)
      · exact hs.rows r hr
    · refine List.pairwise_map.mpr (hs.apart.imp fun hapart => ?_)
      split <;> split <;> exact hapart

-- What stays

theorem Moves.onward (hrow : row ∈ l) : row ∈ l' ∨ ∃ body, Edit ok row.intent body ∧ row.saved lib body ∈ l' := by
  cases h with
  | same => exact .inl hrow
  | added => exact .inl (mem_append_left _ hrow)
  | saved r hr body hedit =>
    have hid : body.execution_id = r.execution_id := by
      rw [hedit.identity]
      exact (hs.rows r hr).id
    by_cases hsame : row = r
    · subst hsame
      exact .inr ⟨body, hedit, (save_eq hs hrow hid _).mpr (.inl rfl)⟩
    · exact .inl ((save_eq hs hr hid row).mpr (.inr ⟨hrow, hsame⟩))

theorem Moves.origin (hrow : row' ∈ l') :
    row' ∈ l ∨ (∃ identity, row'.intent = newIntent lib identity ∧ row'.state = .prepared) ∨
      ∃ row ∈ l, ∃ body, Edit ok row.intent body ∧ row' = row.saved lib body := by
  cases h with
  | same => exact .inl hrow
  | added =>
    rcases List.mem_append.mp hrow with hrow | hrow
    · exact .inl hrow
    · rw [List.mem_singleton.mp hrow]
      exact .inr (.inl ⟨_, rfl, rfl⟩)
  | saved r hr body hedit =>
    have hid : body.execution_id = r.execution_id := by
      rw [hedit.identity]
      exact (hs.rows r hr).id
    rcases (save_eq hs hr hid row').mp hrow with rfl | ⟨hrow, -⟩
    · exact .inr (.inr ⟨r, hr, body, hedit, rfl⟩)
    · exact .inl hrow

theorem Moves.prepared (hl : ∀ row ∈ l, row.intent.Prepared) : ∀ row ∈ l', row.intent.Prepared := by
  intro row hrow
  rcases h.origin hs hrow with hrow | ⟨identity, hintent, -⟩ | ⟨r, hr, body, hedit, rfl⟩
  · exact hl row hrow
  · rw [hintent]
    intro prepared_id hprepared
    cases hprepared
  · exact hedit.prepared (hl r hr)

theorem Moves.continues
    (hl : ∀ row ∈ l, row.intent.Prepared) (hrow : row ∈ l) : ∃ row' ∈ l', row.Continues row' := by
  rcases h.onward hs hrow with hrow' | ⟨body, hedit, hrow'⟩
  · exact ⟨row, hrow', ⟨rfl, rfl, rfl, rfl, rfl⟩, .refl _⟩
  · exact ⟨_, hrow', ⟨rfl, rfl, rfl, rfl, rfl⟩, hedit.continues (hl row hrow)⟩

end

-- Phases

def IntentBody.phaseOf (body : IntentBody) : Phase :=
  if body.cancel_requested then .cancellationPending
  else if body.effect_claim.isSome then .observerClaimed
  else if body.host_prepared_id.isSome then .hostPrepared
  else .prepared

/-- A launch that changes nothing of a claim, nor of a launch that is there. -/
def Mergeable (v : Intent) (launch : Launch) : Prop :=
  (v.cancel_requested = true ∨ v.effect_claim = none) ∧ ∀ launch' ∈ v.launch, launch' = launch

theorem Edit.phased (h : Edit Mergeable v body) (hv : v.phase = v.phaseOf) : body.phase = body.phaseOf := by
  cases h with
  | cancelled => rfl
  | frozen launch hok =>
    rcases hok.1 with hcancel | hnone
    · simp [IntentBody.phaseOf, hcancel, hv]
    · cases hcancel : v.cancel_requested <;> simp [IntentBody.phaseOf, hcancel, hnone, hv]
  | claimed runner hcancel => simp [IntentBody.phaseOf, hcancel]

theorem Edit.launch (h : Edit Mergeable v body) : ∀ launch ∈ v.launch, launch ∈ body.launch := by
  cases h with
  | cancelled | claimed => exact fun _ h => h
  | frozen launch hok =>
    intro launch' hlaunch'
    rw [hok.2 launch' hlaunch']
    rfl

theorem Moves.phased (h : Moves lib Mergeable l l') (hs : LedgerSound lib l)
    (hl : ∀ row ∈ l, row.state = row.intent.phaseOf) : ∀ row ∈ l', row.state = row.intent.phaseOf := by
  intro row hrow
  rcases h.origin hs hrow with hrow | ⟨identity, hintent, hstate⟩ | ⟨r, hr, body, hedit, rfl⟩
  · exact hl row hrow
  · rw [hintent, hstate]
    rfl
  · have hbinds := (hs.rows r hr).binds
    simp only [Row.binds, Bool.and_eq_true, decide_eq_true_eq] at hbinds
    exact hedit.phased (hbinds.2.trans (hl r hr))

end Karajan.Reviewing
