import Karajan.Scheduling.TaskLaws

/-!
# Outcomes of decision commands

A decision command is meant to have one durable outcome. Both outcomes are
written once and never rewritten, and an acceptance looks for a refusal first.
The receipt of a refusal does not look for an acceptance: `one_outcome` says
that this is the only way a command gets two.
-/

namespace Karajan.Scheduling

open Dict Check
open Sample (submit expand task platform role after decision)

def Db.accepted (db : Db) (key : RunKey) : Dict String (Row DecisionReceipt) :=
  (db.runs key).scheduling_decisions

def Db.refused (db : Db) (key : RunKey) : Dict String (Row Rejection) :=
  (db.runs key).scheduling_decision_rejections

-- What a request does to the outcomes

inductive OutcomeMove (P : Platform) (store : Store) (key : RunKey) : Request → Db → Prop
  | kept {db' : Db} (accepted : db'.accepted key = store.db.accepted key)
      (refused : db'.refused key = store.db.refused key) : OutcomeMove P store key request db'
  | accepted {db' : Db} (submission : Submission)
      (owned : owned P store.db key.project_id = .ok ())
      (fresh : (store.db.accepted key).get? submission.command_key = none)
      (unrefused : (store.db.refused key).get? submission.command_key = none)
      (accepted : ∃ row, db'.accepted key = (store.db.accepted key).put submission.command_key row)
      (refused : db'.refused key = store.db.refused key) : OutcomeMove P store key request db'
  | refused {db' : Db} (pending : Pending)
      (waiting : store.pending[index]? = some pending) (of_run : pending.submission.key = key)
      (owned : owned P store.db key.project_id = .ok ())
      (fresh : (store.db.refused key).get? pending.submission.command_key = none)
      (accepted : db'.accepted key = store.db.accepted key)
      (refused : ∃ row, db'.refused key = (store.db.refused key).put pending.submission.command_key row) :
      OutcomeMove P store key (.recordRejection index now) db'

theorem OutcomeMove.frame (hr : db'.runs = (store.db.setRun key' tables).runs)
    (ha : tables.scheduling_decisions = (store.db.runs key').scheduling_decisions)
    (hf : tables.scheduling_decision_rejections = (store.db.runs key').scheduling_decision_rejections) :
    OutcomeMove P store key request db' := by
  refine .kept ?_ ?_
  · simp only [Db.accepted, hr]
    exact Db.setRun_frame RunTables.scheduling_decisions ha
  · simp only [Db.refused, hr]
    exact Db.setRun_frame RunTables.scheduling_decision_rejections hf

theorem decisionReplay_none (h : decisionReplay tables command_key digest = .ok none) :
    tables.scheduling_decisions.get? command_key = none ∧
      tables.scheduling_decision_rejections.get? command_key = none := by
  unfold decisionReplay at h
  split at h
  · split at h <;> cases h
  case h_2 haccepted =>
    split at h
    case h_1 hrefused => exact ⟨haccepted, hrefused⟩
    · split at h <;> cases h

theorem Effect.outcomes (h : Effect P store request db') (key : RunKey) :
    OutcomeMove P store key request db' := by
  cases h with
  | unchanged | resources | credentialIssued => exact .kept rfl rfl
  | runCreated | grantIssued | grantDelegated | grantRevoked | expansionCreated | claimed | reported =>
    exact .frame rfl rfl rfl
  | decided submission _ _ _ receipt tables _ decided =>
    have hafter := (commitDecision_ok decided.committed).after
    obtain ⟨haccepted, hrefused⟩ := decisionReplay_none decided.unanswered
    by_cases hkey : key = submission.key
    · rw [hkey]
      refine .accepted submission decided.owned haccepted hrefused ⟨⟨submission.digest, receipt⟩, ?_⟩ ?_
      · simp only [Db.accepted, Db.setRun_runs_self, hafter]
      · simp only [Db.refused, Db.setRun_runs_self, hafter]
    · refine .kept ?_ ?_
      · simp only [Db.accepted, Db.setRun_runs_of_ne hkey]
      · simp only [Db.refused, Db.setRun_runs_of_ne hkey]
  | refusalRecorded pending waiting howned fresh =>
    by_cases hkey : key = pending.submission.key
    · rw [hkey]
      refine .refused pending waiting rfl howned fresh ?_ ?_
      · simp only [Db.accepted, Db.setRun_runs_self]
      · exact ⟨_, by rw [Db.refused, Db.setRun_runs_self]; rfl⟩
    · refine .kept ?_ ?_
      · simp only [Db.accepted, Db.setRun_runs_of_ne hkey]
      · simp only [Db.refused, Db.setRun_runs_of_ne hkey]

def OutcomesKept (key : RunKey) (command_key : String) (db db' : Db) : Prop :=
  (∀ row, (db.accepted key).get? command_key = some row → (db'.accepted key).get? command_key = some row) ∧
  ∀ row, (db.refused key).get? command_key = some row → (db'.refused key).get? command_key = some row

theorem OutcomeMove.keeps (h : OutcomeMove P store key request db') :
    OutcomesKept key command_key store.db db' := by
  unfold OutcomesKept
  cases h with
  | kept ha hf =>
    rw [ha, hf]
    exact ⟨fun _ hrow => hrow, fun _ hrow => hrow⟩
  | accepted submission _ fresh _ ha hf =>
    obtain ⟨_, ha⟩ := ha
    rw [ha, hf]
    exact ⟨fun _ hrow => get?_put_new fresh hrow, fun _ hrow => hrow⟩
  | refused pending _ _ _ fresh ha hf =>
    obtain ⟨_, hf⟩ := hf
    rw [ha, hf]
    exact ⟨fun _ hrow => hrow, fun _ hrow => get?_put_new fresh hrow⟩

theorem path_keeps_outcomes (key : RunKey) (command_key : String) (h : (schedulingStore P).Path ok store later) :
    OutcomesKept key command_key store.db later.db := by
  refine h.relates (R := fun store later => OutcomesKept key command_key store.db later.db) ?_ ?_ ?_
  · exact fun _ => ⟨fun _ hrow => hrow, fun _ hrow => hrow⟩
  · exact fun _ _ _ h h' => ⟨fun row hrow => h'.1 row (h.1 row hrow), fun row hrow =>
      h'.2 row (h.2 row hrow)⟩
  · exact fun store request _ => ((serve_effect store request).outcomes key).keeps

-- One outcome

/-- The refusal whose receipt is written was accepted meanwhile. -/
def recordsAccepted (store : Store) : Request → Bool
  | .recordRejection index _ =>
    (store.pending[index]?).any fun pending =>
      (store.db.accepted pending.submission.key).contains pending.submission.command_key
  | _ => false

/-- No receipt of a refusal is written under a command that was accepted. -/
def RefusalUnanswered (store : Store) (request : Request) : Prop := recordsAccepted store request = false

instance : Decidable (RefusalUnanswered store request) :=
  inferInstanceAs (Decidable (recordsAccepted store request = false))

/-- A command has one outcome, and a run with outcomes is an owned one. -/
structure OutcomesSound (P : Platform) (db : Db) (key : RunKey) : Prop where
  single : ∀ command_key row, (db.accepted key).get? command_key = some row →
    (db.refused key).get? command_key = none
  accepted_owned : ∀ command_key row, (db.accepted key).get? command_key = some row →
    owned P db key.project_id = .ok ()
  refused_owned : ∀ command_key row, (db.refused key).get? command_key = some row →
    owned P db key.project_id = .ok ()

theorem Effect.projects (h : Effect P store request db') : db'.projects = store.db.projects := by
  cases h <;> rfl

theorem owned_congr {id : String} (h : db'.projects = db.projects) : owned P db' id = owned P db id := by
  simp only [owned, h]

theorem OutcomesSound.move (h : OutcomesSound P store.db key)
    (hm : OutcomeMove P store key request db') (hp : db'.projects = store.db.projects)
    (hok : RefusalUnanswered store request) : OutcomesSound P db' key := by
  cases hm with
  | kept ha hf =>
    constructor
    · rw [ha, hf]; exact h.single
    · rw [ha, owned_congr hp]; exact h.accepted_owned
    · rw [hf, owned_congr hp]; exact h.refused_owned
  | accepted submission howned fresh unrefused ha hf =>
    obtain ⟨_, ha⟩ := ha
    refine ⟨?_, fun _ _ _ => by rwa [owned_congr hp], fun _ _ _ => by rwa [owned_congr hp]⟩
    intro command_key row hrow
    rw [ha, get?_put] at hrow
    rw [hf]
    split at hrow
    case isTrue he => rwa [← he]
    · exact h.single command_key row hrow
  | refused pending waiting of_run howned fresh ha hf =>
    obtain ⟨_, hf⟩ := hf
    refine ⟨?_, fun _ _ _ => by rwa [owned_congr hp], fun _ _ _ => by rwa [owned_congr hp]⟩
    intro command_key row hrow
    rw [ha] at hrow
    rw [hf, get?_put]
    split
    case isTrue he =>
      -- the receipt of a command that was accepted is the one thing excluded
      simp only [RefusalUnanswered, recordsAccepted, waiting, Option.any_some, of_run, he,
        contains_of_get? hrow] at hok
      cases hok
    · exact h.single command_key row hrow

theorem outcomes_sound (h : (schedulingStore P).Reach RefusalUnanswered store) (key : RunKey) :
    OutcomesSound P store.db key := by
  refine h.invariant (I := fun store => OutcomesSound P store.db key) ?_ ?_
  · rintro _ ⟨projects, rfl⟩
    constructor <;> intro command_key row hrow <;> cases hrow
  · intro store request hs hok
    have heffect := serve_effect (P := P) store request
    exact hs.move (heffect.outcomes key) heffect.projects hok

-- Replay

theorem submitDecision_accepted (howned : owned P db key.project_id = .ok ())
    (hrow : (db.accepted key).get? command_key = some row)
    (hread : readSubmission P key grant_id payload principal command_key = .ok submission)
    (hsame : submission.digest = row.digest) :
    submitDecision P db key grant_id payload principal command_key clock = (.accepted row.record false, db) := by
  obtain ⟨hkey, -, hcommand⟩ := readSubmission_ok hread
  have hreplay : decisionReplay (db.runs submission.key) submission.command_key submission.digest =
      .ok (some row.record) := by
    rw [Db.accepted] at hrow
    simp [decisionReplay, hkey, hcommand, hrow, hsame]
  have hdecided : decisionTransaction P db submission clock = .ok ((row.record, false), db) := by
    rw [← hkey] at howned
    simp only [decisionTransaction, howned, hreplay, adjudicate, ok_bind]
    rfl
  simp only [submitDecision, hread, hdecided]

theorem submitDecision_refused (howned : owned P db key.project_id = .ok ())
    (haccepted : (db.accepted key).get? command_key = none) (hrow : (db.refused key).get? command_key = some row)
    (hread : readSubmission P key grant_id payload principal command_key = .ok submission)
    (hsame : submission.digest = row.digest) :
    submitDecision P db key grant_id payload principal command_key clock = (.recorded row.record, db) := by
  obtain ⟨hkey, -, hcommand⟩ := readSubmission_ok hread
  have hreplay : decisionReplay (db.runs submission.key) submission.command_key submission.digest =
      .error (.replayed row.record) := by
    rw [Db.accepted] at haccepted
    rw [Db.refused] at hrow
    simp [decisionReplay, hkey, hcommand, haccepted, hrow, hsame]
  have hdecided : decisionTransaction P db submission clock = .error (.replayed row.record) := by
    rw [← hkey] at howned
    simp only [decisionTransaction, howned, hreplay, adjudicate, ok_bind, error_bind]
  simp only [submitDecision, hread, hdecided]

theorem answerPending_refused (howned : owned P db pending.submission.key.project_id = .ok ())
    (hrow : (db.refused pending.submission.key).get? pending.submission.command_key = some row)
    (hsame : pending.submission.digest = row.digest) :
    answerPending P db pending now = (.recorded row.record, db) := by
  rw [Db.refused] at hrow
  simp [answerPending, recordRejection, howned, hrow, hsame]

/-- In every run that writes no receipt of a refusal under an accepted command, a
command has one outcome at most. The outcome stays on record as it is, and is
the answer to every later submission of the same command, and to every refusal
of it that is still in flight. -/
theorem one_outcome (h : (schedulingStore P).Reach RefusalUnanswered store) (key : RunKey)
    (command_key : String) : ((store.db.accepted key).get? command_key = none ∨
      (store.db.refused key).get? command_key = none) ∧
    ∀ later, (schedulingStore P).Path RefusalUnanswered store later →
      (∀ row, (store.db.accepted key).get? command_key = some row →
        (later.db.accepted key).get? command_key = some row ∧
        ∀ grant_id payload principal clock submission,
          readSubmission P key grant_id payload principal command_key = .ok submission →
          submission.digest = row.digest →
          submitDecision P later.db key grant_id payload principal command_key clock =
            (.accepted row.record false, later.db)) ∧
      ∀ row, (store.db.refused key).get? command_key = some row →
        (later.db.refused key).get? command_key = some row ∧
        (∀ grant_id payload principal clock submission,
          readSubmission P key grant_id payload principal command_key = .ok submission →
          submission.digest = row.digest →
          submitDecision P later.db key grant_id payload principal command_key clock =
            (.recorded row.record, later.db)) ∧
        ∀ pending now, pending.submission.key = key → pending.submission.command_key = command_key →
          pending.submission.digest = row.digest →
          answerPending P later.db pending now = (.recorded row.record, later.db) := by
  refine ⟨?_, fun later hpath => ?_⟩
  · cases haccepted : (store.db.accepted key).get? command_key with
    | none => exact .inl rfl
    | some row => exact .inr ((outcomes_sound h key).single command_key row haccepted)
  · have hs := outcomes_sound (h.path hpath) key
    obtain ⟨hkeptAccepted, hkeptRefused⟩ := path_keeps_outcomes key command_key hpath
    refine ⟨fun row hrow => ?_, fun row hrow => ?_⟩
    · have hlater := hkeptAccepted row hrow
      refine ⟨hlater, fun grant_id payload principal clock submission hread hsame => ?_⟩
      exact submitDecision_accepted (hs.accepted_owned _ _ hlater) hlater hread hsame
    · have hlater := hkeptRefused row hrow
      have howned := hs.refused_owned _ _ hlater
      have hnone : (later.db.accepted key).get? command_key = none := by
        cases haccepted : (later.db.accepted key).get? command_key with
        | none => rfl
        | some accepted =>
          rw [hs.single command_key accepted haccepted] at hlater
          cases hlater
      refine ⟨hlater, fun grant_id payload principal clock submission hread hsame => ?_, ?_⟩
      · exact submitDecision_refused howned hnone hlater hread hsame
      · rintro pending now rfl rfl hsame
        exact answerPending_refused howned hlater hsame

def Sample.refused : List Request :=
  Sample.opened ++ [submit "1" 5 (expand "e" [task "1"] ["d1.1"]), .recordRejection 0 0]

def Sample.refusedAs (store : Store) (payload : Json) : Bool :=
  match readSubmission platform Sample.key "g" payload role "1" with
  | .ok submission =>
    ((store.db.refused Sample.key).get? "1").any fun row => submission.digest = row.digest
  | .error _ => false

open Sample in
/-- A refused decision is answered with its receipt when it is submitted again. -/
theorem one_outcome_refused : ∃ store record, store = after refused ∧
      submitDecision platform store.db key "g" (decision "d1" 5 (expand "e" [task "1"] ["d1.1"])) role "1"
        clock = (.recorded record, store.db) := by
  have hreach : system.Reach RefusalUnanswered (after refused) :=
    .of_run start_initial (by decide +kernel)
  have hrefused : refusedAs (after refused)
      (decision "d1" 5 (expand "e" [task "1"] ["d1.1"])) = true := by
    decide +kernel
  generalize after refused = store at hreach hrefused
  unfold refusedAs at hrefused
  split at hrefused
  case h_2 => cases hrefused
  case h_1 submission hread =>
    simp only [Option.any_eq_true, decide_eq_true_eq] at hrefused
    obtain ⟨row, hrow, hsame⟩ := hrefused
    have hanswer := ((one_outcome hreach key "1").2 store .refl).2 row hrow
    exact ⟨store, row.record, rfl, hanswer.2.1 _ _ _ _ submission hread hsame⟩

open Sample in
/-- A second decision under the key of an accepted one is refused, and its
receipt gives the key a second outcome. -/
theorem refused_after_accepted : ∃ store, store = after (ready ++
        [submit "1" 1 (expand "e" [task "2"] ["d1.2"]), .recordRejection 0 0]) ∧
      (store.db.accepted key).contains "1" = true ∧
      (store.db.refused key).contains "1" = true := by
  refine ⟨_, rfl, ?_⟩
  decide +kernel

-- Claims

theorem path_keeps_claims (h : (schedulingStore P).Path ok store later)
    (hrow : (store.db.claims key).get? command_key = some row) :
    (later.db.claims key).get? command_key = some row ∧ later.db.projects = store.db.projects := by
  refine h.keeps (I := fun s => (s.db.claims key).get? command_key = some row ∧
    s.db.projects = store.db.projects) ?_ ⟨hrow, rfl⟩
  rintro s request ⟨hrow, hprojects⟩ -
  have heffect := serve_effect (P := P) s request
  refine ⟨?_, heffect.projects.trans hprojects⟩
  show ((s.serve P request).db.claims key).get? command_key = some row
  cases heffect.tasks with
  | kept kept => rwa [kept.claims]
  | planned planned => rwa [planned.claims]
  | reported reported => rwa [reported.claims]
  | @claimed _ _ _ _ _ _ _ _ _ key' claimed =>
    by_cases hkey : key = key'
    · subst hkey
      obtain ⟨claim, hclaims, -⟩ := claimed.claims
      rw [hclaims]
      exact get?_put_new claimed.unanswered hrow
    · rwa [claimed.claims_elsewhere key hkey]

/-- A task is handed out once under a command. Whatever is decided, claimed and reported
since, the same claim is answered with the hand-over on record, and nothing else under that
command succeeds. -/
theorem claim_answered_once {store : Store}
    (h : claim P store.db key payload principal command_key clock = .ok ((answer, true), db'))
    (hp : (schedulingStore P).Path System.free { store with db := db' } later) (clock' : Nat → Rat) :
    claim P later.db key payload principal command_key clock' = .ok ((answer, false), later.db) ∧
    ∀ payload' principal' result,
      claim P later.db key payload' principal' command_key clock' = .ok result →
      result = ((answer, false), later.db) := by
  simp only [claim, bind_ok] at h
  obtain ⟨_, hroute, _, hrun, fields, hfields, claim_key, hkey, task_id, htask, _, howned, replay, -, h⟩ := h
  split at h
  · cases h
  simp only [bind_ok, need_ok] at h
  obtain ⟨_, -, tasks, -, document, -, h⟩ := h
  split at h
  · cases h
  simp only [bind_ok, insertRow_ok, pair_ok, Prod.mk.injEq, and_true] at h
  obtain ⟨_, -, ⟨grant, admission⟩, -, _, ⟨-, rfl⟩, _, -, rfl, rfl⟩ := h
  obtain ⟨hrow, hprojects⟩ := path_keeps_claims hp
    (show (Db.claims _ key).get? command_key = _ by
      simp only [Db.claims, Db.setRun_runs_self]
      exact get?_put_self)
  change (later.db.runs key).task_claims.get? command_key = _ at hrow
  refine ⟨?_, fun payload' principal' result hagain => ?_⟩
  · replace hprojects : later.db.projects = store.db.projects := hprojects
    rw [← owned_congr hprojects] at howned
    simp [claim, hroute, hrun, hfields, hkey, htask, howned, claimReplay, hrow]
    rfl
  · simp only [claim, claimReplay, hrow, bind_ok] at hagain
    obtain ⟨_, -, _, -, _, -, _, -, _, -, _, -, _, ⟨_, -, hreplay⟩, hagain⟩ := hagain
    cases hreplay
    cases hagain
    rfl

open Sample in
theorem claim_answered_once_completed : ∃ payload answer db' later,
    claim platform (after ready).db key payload worker "1" clock = .ok ((answer, true), db') ∧
    later = system.run { after ready with db := db' } [report "d1.1" "completed" worker true] ∧
    claim platform later.db key payload worker "1" clock = .ok ((answer, false), later.db) := by
  have hok : (claim platform (after ready).db key (.object [("claim_key", .str "1"), ("task_id", .str "d1.1")])
      worker "1" clock).toOption.map (fun r => r.1.2) = some true := by decide +kernel
  obtain ⟨⟨⟨answer, _⟩, db'⟩, hclaim, rfl⟩ := ok_of_map hok
  exact ⟨_, answer, db', _, hclaim, rfl, (claim_answered_once hclaim .of_free_run clock).1⟩

end Karajan.Scheduling
