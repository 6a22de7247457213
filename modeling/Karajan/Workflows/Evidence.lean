import Karajan.Workflows.Activation

/-!
# Deployment evidence

Three writers change a stored intent: the record of a step, the record of a
failure and the completion by an activation. Each reads the intent in its own
transaction and merges into what it finds, so in any interleaving evidence is
only added, and once the ledger has a result the verdict is final.
-/

namespace Karajan.Workflows

open List Dict Check
variable {t t' t'' : Tables} {intent intent' : Intent}

-- Evidence

def Intent.failures (intent : Intent) : List Failure := intent.failure_history ++ intent.failure.toList

def Intent.verdict (intent : Intent) : Option Outcome × Option Failure × List Failure :=
  (intent.outcome, intent.failure, intent.failure_history)

structure Intent.Succeeded (intent : Intent) : Prop where
  outcome : intent.outcome = some .activated
  failure : intent.failure = none

structure Intent.Extends (intent intent' : Intent) : Prop where
  failures : intent.failures <+: intent'.failures
  steps : intent.completed_steps ⊆ intent'.completed_steps

structure Progress (t t' : Tables) : Prop where
  ledger : ∀ key, (t.commands.get? key).isSome → (t'.commands.get? key).isSome
  intents : ∀ key intent, t.intents.get? key = some intent → ∃ intent',
    t'.intents.get? key = some intent' ∧ intent.Extends intent' ∧
    ((t.commands.get? key).isSome → intent'.verdict = intent.verdict)
  finished : ∀ key record, Finished t' key record →
    Finished t key record ∨ ∃ intent, t'.intents.get? key = some intent ∧ intent.Succeeded

/-- A write by a deployment command, whose results are deployments. -/
structure Written (t t' : Tables) : Prop extends Progress t t' where
  results : ∀ key row, t'.commands.get? key = some row →
    t.commands.get? key = some row ∨ ∃ record, Finished t' key record

def Closed (t : Tables) : Prop := ∀ key record, Finished t key record → ∃ intent,
    t.intents.get? key = some intent ∧ intent.Succeeded

theorem Intent.Extends.refl : intent.Extends intent := ⟨prefix_rfl, fun _ h => h⟩

theorem Intent.Extends.trans (h : intent.Extends intent')
    (h' : intent'.Extends intent'') : intent.Extends intent'' :=
  ⟨h.failures.trans h'.failures, fun _ hm => h'.steps (h.steps hm)⟩

theorem Intent.Succeeded.of_verdict (h : intent'.verdict = intent.verdict)
    (hs : intent.Succeeded) : intent'.Succeeded := by
  simp only [verdict, Prod.mk.injEq] at h
  obtain ⟨houtcome, hfailure, -⟩ := h
  exact ⟨houtcome.trans hs.outcome, hfailure.trans hs.failure⟩

theorem Finished.isSome (h : Finished t key record) : (t.commands.get? key).isSome := by
  obtain ⟨row, -, hrow, -⟩ := h
  simp [hrow]

namespace Progress

theorem refl : Progress t t :=
  ⟨fun _ h => h, fun _ intent h => ⟨intent, h, .refl, fun _ => rfl⟩, fun _ _ h => .inl h⟩

theorem closed (h : Progress t t') (hc : Closed t) : Closed t' := by
  intro key record hf
  rcases h.finished key record hf with hf | hnew
  · obtain ⟨intent, hintent, hs⟩ := hc key record hf
    obtain ⟨intent', hintent', -, hverdict⟩ := h.intents key intent hintent
    exact ⟨intent', hintent', hs.of_verdict (hverdict hf.isSome)⟩
  · exact hnew

theorem trans (h : Progress t t') (h' : Progress t' t'') : Progress t t'' := by
  refine ⟨fun key hs => h'.ledger key (h.ledger key hs), fun key intent hintent => ?_, fun key record hf => ?_⟩
  · obtain ⟨intent', hintent', hext, hverdict⟩ := h.intents key intent hintent
    obtain ⟨intent'', hintent'', hext', hverdict'⟩ := h'.intents key intent' hintent'
    refine ⟨intent'', hintent'', hext.trans hext', fun hs => ?_⟩
    rw [hverdict' (h.ledger key hs), hverdict hs]
  · rcases h'.finished key record hf with hf | hnew
    · rcases h.finished key record hf with hf' | ⟨intent, hintent, hs⟩
      · exact .inl hf'
      · obtain ⟨intent', hintent', -, hverdict⟩ := h'.intents key intent hintent
        exact .inr ⟨intent', hintent', hs.of_verdict (hverdict hf.isSome)⟩
    · exact .inr hnew

theorem intents_put (stored : t.intents.get? key = some intent)
    (hput : t'.intents = t.intents.put key intent') (hext : intent.Extends intent')
    (hverdict : (t.commands.get? key).isSome → intent'.verdict = intent.verdict) :
    ∀ other found, t.intents.get? other = some found → ∃ found',
      t'.intents.get? other = some found' ∧ found.Extends found' ∧
      ((t.commands.get? other).isSome → found'.verdict = found.verdict) := by
  intro other found hfound
  by_cases hk : key = other
  · subst hk
    rw [stored] at hfound
    cases hfound
    exact ⟨intent', by simp [hput], hext, hverdict⟩
  · exact ⟨found, by rw [hput, get?_put_of_ne hk, hfound], .refl, fun _ => rfl⟩

end Progress

-- The writers

theorem Written.refl : Written t t := ⟨.refl, fun _ _ h => .inl h⟩

theorem mutateIntent_written (h : mutateIntent key change t = .ok (u, t'))
    (hext : ∀ record, Intent.Extends record (change record)) (hverdict : (t.commands.get? key).isSome →
      ∀ record, (change record).verdict = Intent.verdict record) : Written t t' := by
  unfold mutateIntent at h
  split at h
  · cases h; exact .refl
  case h_2 record hrecord =>
    cases h
    refine ⟨⟨fun _ h => h, ?_, fun _ _ hf => .inl hf⟩, fun _ _ h => .inl h⟩
    exact Progress.intents_put hrecord rfl (hext record) fun hs => hverdict hs record

theorem recordStep_written (h : recordStep key step t = .ok (u, t')) : Written t t' := by
  unfold recordStep at h
  refine mutateIntent_written h (fun record => ⟨prefix_rfl, fun kept hm => ?_⟩)
    fun _ _ => rfl
  dsimp only
  split
  · exact hm
  · exact mem_append_left _ hm

theorem recordFailure_written (h : recordFailure now key error t = .ok (u, t')) : Written t t' := by
  unfold recordFailure at h
  split at h
  · cases h; exact .refl
  case h_2 hnone =>
    -- the ledger has no result yet, so the verdict may still change
    refine mutateIntent_written h (fun record => ⟨prefix_append _ _, fun _ hm => hm⟩)
      fun hs => ?_
    rw [hnone] at hs
    cases hs

theorem persist_written (h : persist key digest record t = .ok (persisted, t')) : Written t t' := by
  unfold persist at h
  split at h
  · split at h
    · cases h; exact .refl
    · cases h
  · split at h
    · split at h
      · cases h; exact .refl
      · cases h
    case h_2 hfresh =>
      cases h
      refine ⟨⟨fun _ h => h, fun other intent hintent => ?_, fun _ _ hf => .inl hf⟩, fun _ _ h => .inl h⟩
      exact ⟨intent, get?_put_new hfresh hintent, .refl, fun _ => rfl⟩

theorem subset_merged (steps merged : List Step) :
    merged ⊆ steps.foldl (fun merged step => if step ∈ merged then merged else merged ++ [step]) merged := by
  induction steps generalizing merged with
  | nil => exact fun _ h => h
  | cons step steps ih =>
    intro kept hm
    apply ih
    dsimp only
    split
    · exact hm
    · exact mem_append_left _ hm

theorem completeIntent_ok (h : completeIntent key intent t = .ok (u, t'))
    (stored : t.intents.get? key = some intent') :
    ∃ noted, t' = { t with intents := t.intents.put key noted } ∧ intent'.Extends noted ∧
      noted.Succeeded := by
  simp only [completeIntent, mutateIntent, stored] at h
  cases h
  refine ⟨_, rfl, ⟨?_, subset_merged ..⟩, rfl, rfl⟩
  simp [Intent.failures]

theorem activate_written (hheld : Held t key intent.toTerms)
    (h : activate D w key digest intent receipt t = .ok (result, t')) : Written t t' := by
  unfold activate at h
  split at h
  · simp only [bind_ok, pair_ok] at h
    obtain ⟨_, -, -, rfl⟩ := h
    exact .refl
  case h_2 hfresh =>
    obtain ⟨stored, hstored, -⟩ := hheld
    simp only [bind_ok, pair_ok] at h
    obtain ⟨_, -, _, -, _, -, ⟨_, next⟩, hcompleted, -, rfl⟩ := h
    obtain ⟨noted, rfl, hext, hsucceeded⟩ := completeIntent_ok hcompleted hstored
    have hnone : ¬ (t.commands.get? key).isSome := by simp [hfresh]
    have hother : ∀ {row : LedgerRow} {other}, key ≠ other →
        (t.commands.put key row).get? other = t.commands.get? other :=
      fun hk => get?_put_of_ne hk
    refine ⟨⟨fun other hs => ?_, Progress.intents_put hstored rfl hext fun hs => absurd hs hnone,
      fun other record hf => ?_⟩, fun other row hrow => ?_⟩
    · by_cases hk : key = other
      · simp [hk]
      · simpa [hother hk] using hs
    · by_cases hk : key = other
      · exact .inr ⟨noted, by simp [hk], hsucceeded⟩
      · obtain ⟨row, accepted, hrow, hresult, hrecord⟩ := hf
        exact .inl ⟨row, accepted, by simpa [hother hk] using hrow, hresult, hrecord⟩
    · by_cases hk : key = other
      · subst hk
        exact .inr ⟨_, _, _, get?_put_self, rfl, rfl⟩
      · exact .inl (by simpa [hother hk] using hrow)

theorem useLedger_progress (key : CommandKey) (digest : String) : Progress t (t.useLedger key digest) := by
  unfold Tables.useLedger
  split
  · exact .refl
  · refine ⟨fun other hs => ?_, fun _ intent h => ⟨intent, h, .refl, fun _ => rfl⟩,
      fun other record hf => .inl ?_⟩
    · by_cases hk : key = other
      · simp [hk]
      · simpa [get?_put_of_ne hk] using hs
    · obtain ⟨row, accepted, hrow, hresult, hrecord⟩ := hf
      rcases of_put hrow with ⟨-, rfl⟩ | ⟨-, hrow⟩
      · cases hresult
      · exact ⟨row, accepted, hrow, hresult, hrecord⟩

-- Steps and runs

theorem execute_written {next : Next} (hheld : Held t key intent.toTerms) :
    Written t (execute D w key digest intent t packages next).1 := by
  cases next with
  | materialize =>
    unfold execute
    cases materialize w intent packages <;> exact .refl
  | recordMaterialize | recordLoad receipt => exact owned_keeps .refl fun _ _ => recordStep_written
  | load => exact .refl
  | activate receipt => exact owned_keeps .refl fun _ _ => activate_written hheld

theorem advance_written {attempt : Attempt} (hg : attempt.stage.Grounded t attempt.key) :
    Written t (attempt.advance D w t packages).1 := by
  obtain ⟨controller, key, stage⟩ := attempt
  cases stage with
  | targeting project_id target expected =>
    refine owned_keeps .refl fun _ t' h => ?_
    simp only [historicalDeployment, bind_ok, pair_ok] at h
    obtain ⟨_, -, _, -, -, rfl⟩ := h
    exact .refl
  | received command => exact owned_keeps .refl fun _ _ h => (lookUp_ok h).1 ▸ .refl
  | building command | answered answer | stopped => exact .refl
  | built command record => exact owned_keeps .refl fun _ _ => persist_written
  | running digest intent next => exact execute_written hg.1
  | failing error => exact owned_keeps .refl fun _ _ => recordFailure_written

/-- Only deployment commands and crashes, whatever becomes of the files. -/
def Action.deploys : Action → Prop
  | .ledger .. => False
  | _ => True

theorem step_written (hc : Coherent s) {a : Action} (ha : a.deploys) : Written s.tables (s.step D a).tables := by
  cases a with
  | submit controller key call | crash controller => exact .refl
  | disturb place found => cases found <;> exact .refl
  | ledger => exact ha.elim
  | advance index w =>
    simp only [State.step, State.advance]
    cases hattempt : s.attempts[index]? with
    | none => exact .refl
    | some attempt => exact advance_written (hc.grounded attempt (mem_of_getElem? hattempt))

theorem step_progress (hc : Coherent s) (a : Action) : Progress s.tables (s.step D a).tables := by
  cases a with
  | ledger key digest => exact useLedger_progress key digest
  | _ => exact (step_written hc (by trivial)).toProgress

theorem path_progress (hc : Coherent s) (h : (system D).Path System.free s s') : Progress s.tables s'.tables := by
  have hkept : Coherent s' ∧ Progress s.tables s'.tables :=
    h.keeps (I := fun s' => Coherent s' ∧ Progress s.tables s'.tables)
      (fun s' a hs _ => ⟨hs.1.step a, hs.2.trans (step_progress hs.1 a)⟩) ⟨hc, .refl⟩
  exact hkept.2

theorem Closed.of_reach (h : (system D).Reach System.free s) : Closed s.tables := by
  obtain ⟨i, hi, hpath⟩ := h
  cases hi
  refine (path_progress coherent_empty hpath).closed ?_
  rintro key record ⟨row, -, hrow, -⟩
  cases hrow

theorem finished_of_row (h : (system D).Reach (fun _ a => a.deploys) s)
    (hrow : s.tables.commands.get? key = some row) : ∃ record, Finished s.tables key record := by
  have hkept : Coherent s ∧ ∀ key row, s.tables.commands.get? key = some row →
      ∃ record, Finished s.tables key record := by
    refine h.invariant (I := fun s => Coherent s ∧ ∀ key row,
      s.tables.commands.get? key = some row → ∃ record, Finished s.tables key record) ?_ ?_
    · rintro i rfl
      refine ⟨coherent_empty, ?_⟩
      rintro key row ⟨⟩
    · intro s a ⟨hc, hfinished⟩ ha
      refine ⟨hc.step a, fun key row hrow => ?_⟩
      rcases (step_written hc ha).results key row hrow with hbefore | hnew
      · obtain ⟨record, hf⟩ := hfinished key row hbefore
        obtain ⟨other, hmove, -⟩ := step_move (D := D) hc a
        exact ⟨record, hmove.finished hf⟩
      · exact hnew
  exact hkept.2 key row hrow

/-- What holds of the evidence in a state and in every run from it. -/
structure Evidence (D : Digests) (s : State) : Prop where
  /-- Once a command finished its intent has succeeded, and no failure is added. -/
  final : ∀ key record s', Finished s.tables key record → (system D).Path System.free s s' →
    ∃ intent intent', s.tables.intents.get? key = some intent ∧
      s'.tables.intents.get? key = some intent' ∧ intent.Succeeded ∧ intent'.Succeeded ∧
      intent'.failures = intent.failures
  /-- Recorded failures stay, in their order, and completed steps stay. -/
  kept : ∀ key intent s', s.tables.intents.get? key = some intent →
    (system D).Path System.free s s' → ∃ intent', s'.tables.intents.get? key = some intent' ∧
      intent.failures <+: intent'.failures ∧ intent.completed_steps ⊆ intent'.completed_steps
  /-- Where deployments alone use the ledger, a result in it is that of a finished command. -/
  results : (system D).Reach (fun _ a => a.deploys) s → ∀ key row,
    s.tables.commands.get? key = some row → ∃ record, Finished s.tables key record

theorem evidence_kept (h : (system D).Reach System.free s) : Evidence D s := by
  have hc := Coherent.of_reach h
  refine ⟨fun key record s' hf hpath => ?_, fun key intent s' hintent hpath => ?_,
    fun hdeploys key row => finished_of_row hdeploys⟩
  · obtain ⟨intent, hintent, hs⟩ := Closed.of_reach h key record hf
    obtain ⟨intent', hintent', -, hverdict⟩ := (path_progress hc hpath).intents key intent hintent
    have hsame := hverdict hf.isSome
    refine ⟨intent, intent', hintent, hintent', hs, hs.of_verdict hsame, ?_⟩
    simp only [Intent.verdict, Prod.mk.injEq] at hsame
    rw [Intent.failures, hsame.2.1, hsame.2.2, ← Intent.failures]
  · obtain ⟨intent', hintent', hext, -⟩ := (path_progress hc hpath).intents key intent hintent
    exact ⟨intent', hintent', hext.failures, hext.steps⟩

/-- A command whose first attempt failed is submitted again and activates. -/
theorem evidence_kept_retried : ∃ s intent, Evidence Sample.digests s ∧
      s.tables.intents.get? (Sample.owner "2") = some intent ∧
      intent.outcome = some .activated ∧ intent.failures.length = 1 := by
  let s := Sample.after (Sample.early ++ Sample.resumed ++ Sample.steps 2 1 "z")
  have hretried : (s.tables.intents.get? (Sample.owner "2")).any (fun intent =>
      intent.outcome = some .activated && intent.failures.length = 1) = true := by decide +kernel
  obtain ⟨intent, hintent, hevidence⟩ := (Option.any_eq_true ..).mp hretried
  simp only [Bool.and_eq_true, decide_eq_true_eq] at hevidence
  exact ⟨s, intent, evidence_kept (Sample.after_reach _), hintent, hevidence⟩

end Karajan.Workflows
