import Karajan.Scheduling.TaskLaws

/-!
# Graph revisions

The revisions of a run are numbered from one up to its pointer, and each names
its parent and the digest it was stored under. Every accepted decision adds one,
made against the pointer it moves; nothing else does.
-/

namespace Karajan.Scheduling

open Dict Check
variable {db db' : Db} {store later : Store}

def RunTables.pointer (tables : RunTables) : Nat := tables.task_graph_current.getD 0

def parentLink (row : Row GraphRevision) : Nat × String := (row.record.parent_revision, row.record.parent_digest)

/-- The digest a revision is stored under, none for the parent of the first. -/
def storedDigest (row : Option (Row GraphRevision)) : String := (row.map fun row => row.record.digest).getD ""

/-- What the revisions of a run and its accepted decisions are. -/
structure RevisionChain (P : Platform) (tables : RunTables) : Prop where
  created : tables.workflow_run = none → tables.task_graph_current = none
  numbered : Chain.Numbered tables.task_graph_revisions tables.pointer
  linked : Chain.Linked parentLink storedDigest tables.task_graph_revisions
  intact : ∀ k row, tables.task_graph_revisions.get? k = some row →
    row.record.revision = k ∧ row.digest = row.record.digest ∧
      row.record.digest = P.contentDigest row.record.body
  receipts : ∀ command_key row, tables.scheduling_decisions.get? command_key = some row →
    row.record.graph_revision = row.record.expected_graph_revision + 1 ∧
      ∃ revision, tables.task_graph_revisions.get? row.record.graph_revision = some revision ∧
        revision.digest = row.record.graph_digest
  single : ∀ command_key row command_key' row',
    tables.scheduling_decisions.get? command_key = some row →
    tables.scheduling_decisions.get? command_key' = some row' →
    row.record.expected_graph_revision = row'.record.expected_graph_revision →
    command_key = command_key'
  decided : ∀ k revision, tables.task_graph_revisions.get? k = some revision →
    ∃ command_key row, tables.scheduling_decisions.get? command_key = some row ∧
      row.record.graph_revision = k

/-- What an accepted decision adds, at the pointer it was made against. -/
structure Committed (P : Platform) (before : RunTables) (receipt : DecisionReceipt)
    (command_key : String) (after : RunTables) : Prop where
  base : before.task_graph_current = some receipt.expected_graph_revision
  revision : receipt.graph_revision = receipt.expected_graph_revision + 1
  pointer : after.task_graph_current = some receipt.graph_revision
  fresh : before.scheduling_decisions.get? command_key = none
  decision : ∃ digest, after.scheduling_decisions = before.scheduling_decisions.put command_key ⟨digest, receipt⟩
  added : ∃ record : GraphRevision, after.task_graph_revisions =
      before.task_graph_revisions.put receipt.graph_revision ⟨record.digest, record⟩ ∧
    parentLink ⟨record.digest, record⟩ = (receipt.expected_graph_revision, storedDigest
      (before.task_graph_revisions.get? receipt.expected_graph_revision)) ∧
    record.revision = receipt.graph_revision ∧ record.digest = receipt.graph_digest ∧
    record.digest = P.contentDigest record.body
  started : after.workflow_run ≠ none

-- One accepted decision

theorem requireBase_ok (h : requireBase tables parsed = .ok current) :
    parsed.expected_graph_revision = current := by
  simp only [requireBase, bind_ok, ensure_ok, decide_eq_true_eq, pure_ok] at h
  obtain ⟨_, hexpected, _, -, rfl⟩ := h
  exact hexpected

theorem Decided.added (h : Decided P db submission clock grant current plan receipt after) :
    Committed P (db.runs submission.key) receipt submission.command_key after := by
  have hplan := adjudicatePlan_ok h.planned
  have hcommit := commitDecision_ok h.committed
  obtain ⟨ctx, haccepted, -, hctx⟩ := hplan.accepted
  have hrevision : plan.revision = current + 1 := haccepted.revision.trans hctx
  have hbase := requireBase_ok hplan.base
  obtain ⟨run, hrun⟩ := hplan.run
  have hof := hcommit.of_receipt
  have hgraph : receipt.graph_revision = plan.revision := by rw [hof]; rfl
  have hexpected : receipt.expected_graph_revision = current := by rw [hof]; exact hbase
  constructor
  · rw [hexpected]; exact hcommit.pointer
  · rw [hgraph, hexpected]; exact hrevision
  · rw [hcommit.after, hgraph]
  · exact hcommit.fresh_decision
  · exact ⟨submission.digest, by rw [hcommit.after]⟩
  · refine ⟨_, by rw [hcommit.after, hgraph], ?_, by rw [hgraph]; rfl, by rw [hof]; rfl, rfl⟩
    rw [hexpected]
    rfl
  · rw [hcommit.after]
    simp only [runRow, bind_ok, need_ok] at hrun
    obtain ⟨record, hrecord, -⟩ := hrun
    simp [hrecord]

theorem Committed.pointer_before (h : Committed P tables receipt command_key after) :
    tables.pointer = receipt.expected_graph_revision := by
  simp [RunTables.pointer, h.base]

theorem RevisionChain.decide (h : RevisionChain P tables)
    (hc : Committed P tables receipt command_key after) : RevisionChain P after := by
  obtain ⟨digest, hdecisions⟩ := hc.decision
  obtain ⟨record, hrevisions, hlink, hnumber, hdigest, hintact⟩ := hc.added
  have hnumbered := hc.pointer_before ▸ h.numbered
  have hfresh := hnumbered.fresh
  rw [hc.revision] at hrevisions hnumber
  -- what was decided earlier is at a revision that is stored already
  have holder : ∀ command_key row, tables.scheduling_decisions.get? command_key = some row →
      row.record.expected_graph_revision ≠ receipt.expected_graph_revision := by
    intro command_key row hrow hsame
    obtain ⟨hnext, revision, hstored, -⟩ := h.receipts command_key row hrow
    rw [hnext, hsame, hfresh] at hstored
    cases hstored
  constructor
  · exact fun hnone => absurd hnone hc.started
  · rw [RunTables.pointer, hc.pointer, hc.revision, hrevisions]
    exact hnumbered.put
  · rw [hrevisions]
    exact h.linked.put hnumbered hlink
  · intro k row hrow
    rw [hrevisions, get?_put] at hrow
    split at hrow
    case isTrue hk => cases hrow; exact ⟨hnumber.trans hk, rfl, hintact⟩
    · exact h.intact k row hrow
  · intro command_key' row hrow
    rw [hdecisions, get?_put] at hrow
    split at hrow
    · cases hrow
      refine ⟨hc.revision, ⟨record.digest, record⟩, ?_, hdigest⟩
      rw [hrevisions, hc.revision, get?_put_self]
    · obtain ⟨hnext, revision, hstored, hsame⟩ := h.receipts command_key' row hrow
      refine ⟨hnext, revision, ?_, hsame⟩
      have hne := holder command_key' row hrow
      rw [hrevisions, get?_put_of_ne (by omega)]
      exact hstored
  · intro one row other row' hone hother hsame
    rw [hdecisions, get?_put] at hone hother
    split at hone <;> split at hother
    case isTrue.isTrue hk hk' => exact hk.symm.trans hk'
    case isTrue.isFalse => cases hone; exact absurd hsame.symm (holder other row' hother)
    case isFalse.isTrue => cases hother; exact absurd hsame (holder one row hone)
    case isFalse.isFalse => exact h.single one row other row' hone hother hsame
  · intro k revision hstored
    rw [hrevisions, get?_put] at hstored
    split at hstored
    case isTrue hk =>
      exact ⟨command_key, ⟨digest, receipt⟩, by rw [hdecisions, get?_put_self], hc.revision.trans hk⟩
    · obtain ⟨command_key', row, hrow, hat⟩ := h.decided k revision hstored
      exact ⟨command_key', row, by rw [hdecisions, get?_put_new hc.fresh hrow], hat⟩

-- What a request does to the revisions

def RunTables.history (tables : RunTables) :
    Option RunRecord × Option Nat × Dict Nat (Row GraphRevision) × Dict String (Row DecisionReceipt) :=
  (tables.workflow_run, tables.task_graph_current, tables.task_graph_revisions, tables.scheduling_decisions)

inductive RevisionMove (P : Platform) (request : Request) (key : RunKey) (before : RunTables) :
    RunTables → Prop
  | kept {after : RunTables} (same : after.history = before.history) :
      RevisionMove P request key before after
  | created {record : RunRecord} (fresh : before.workflow_run = none) :
      RevisionMove P request key before
        { before with workflow_run := some record, task_graph_current := some 0 }
  | decided {receipt : DecisionReceipt} {after : RunTables} {payload : Json} {principal : Principal}
      (sent : request = .submitDecision key grant_id payload principal command_key clock)
      (added : Committed P before receipt command_key after) :
      RevisionMove P request key before after

theorem RevisionMove.frame (hr : db'.runs = (db.setRun key' tables).runs)
    (h : tables.history = (db.runs key').history) : RevisionMove P request key (db.runs key) (db'.runs key) := by
  refine .kept ?_
  rw [hr]
  exact Db.setRun_frame RunTables.history h

theorem RevisionMove.setRun (h : RevisionMove P request key' (db.runs key') tables) :
    RevisionMove P request key (db.runs key) ((db.setRun key' tables).runs key) := by
  rw [Db.setRun_runs]
  split
  case isTrue hkey => rw [hkey]; exact h
  · exact .kept rfl

theorem Effect.revisions (h : Effect P store request db') (key : RunKey) :
    RevisionMove P request key (store.db.runs key) (db'.runs key) := by
  cases h with
  | unchanged | resources | credentialIssued => exact .kept rfl
  | grantIssued | grantDelegated | grantRevoked | expansionCreated | refusalRecorded | claimed
  | reported => exact .frame rfl rfl
  | runCreated fresh => exact .setRun (.created fresh)
  | decided submission _ _ _ _ _ read decided =>
    obtain ⟨rfl, -, rfl⟩ := readSubmission_ok read
    exact .setRun (.decided rfl decided.added)

/-- A run that is created has no revision yet: those a pointer leads to are
numbered up to it. -/
theorem RevisionChain.move (h : RevisionChain P tables)
    (hm : RevisionMove P request key tables after) : RevisionChain P after := by
  cases hm with
  | kept same =>
    simp only [RunTables.history, Prod.mk.injEq] at same
    obtain ⟨hrun, hcurrent, hrevisions, hdecisions⟩ := same
    constructor
    · rw [hrun, hcurrent]; exact h.created
    · rw [RunTables.pointer, hcurrent, hrevisions]; exact h.numbered
    · rw [hrevisions]; exact h.linked
    · rw [hrevisions]; exact h.intact
    · rw [hdecisions, hrevisions]; exact h.receipts
    · rw [hdecisions]; exact h.single
    · rw [hdecisions, hrevisions]; exact h.decided
  | created fresh =>
    have hpointer : tables.pointer = 0 := by simp [RunTables.pointer, h.created fresh]
    exact ⟨nofun, hpointer ▸ h.numbered, h.linked, h.intact, h.receipts, h.single, h.decided⟩
  | decided _ added => exact h.decide added

theorem RevisionMove.keeps (h : RevisionChain P tables) (hm : RevisionMove P request key tables after)
    (hrow : tables.task_graph_revisions.get? k = some row) : after.task_graph_revisions.get? k = some row := by
  cases hm with
  | kept same =>
    simp only [RunTables.history, Prod.mk.injEq] at same
    rwa [same.2.2.1]
  | created => exact hrow
  | decided _ added =>
    obtain ⟨record, hrevisions, -⟩ := added.added
    have hpointer := added.pointer_before
    have hle := (h.numbered k).mp (Dict.mem_keys.mpr ⟨row, hrow⟩)
    rw [hrevisions, added.revision, get?_put_of_ne (by omega)]
    exact hrow

-- Every run

theorem RevisionChain.empty : RevisionChain P ({} : RunTables) := by
  refine ⟨fun _ => rfl, .zero fun _ => rfl, ?_, ?_, ?_, ?_, ?_⟩
  · exact fun k row hrow => nomatch hrow
  · exact fun k row hrow => nomatch hrow
  · exact fun command_key row hrow => nomatch hrow
  · exact fun command_key row _ _ hrow => nomatch hrow
  · exact fun k row hrow => nomatch hrow

theorem revisions_chained (h : (schedulingStore P).Reach System.free store) (key : RunKey) :
    RevisionChain P (store.db.runs key) := by
  refine h.invariant (I := fun store => RevisionChain P (store.db.runs key)) ?_ ?_
  · rintro _ ⟨projects, rfl⟩
    exact .empty
  · exact fun store request hi _ => hi.move ((serve_effect store request).revisions key)

theorem path_keeps_revisions (h : (schedulingStore P).Reach System.free store)
    (hpath : (schedulingStore P).Path System.free store later)
    (hrow : (store.db.runs key).task_graph_revisions.get? k = some row) :
    (later.db.runs key).task_graph_revisions.get? k = some row := by
  induction hpath with
  | refl => exact hrow
  | step hp _ ih =>
    exact ((serve_effect _ _).revisions key).keeps (revisions_chained (h.path hp) key) ih

-- How a submission is answered

def Answer.accepts : Answer → Bool
  | .accepted _ _ => true
  | _ => false

/-- An accepted decision adds one revision to its run; a decision on record and
a refused one leave the database as it was. -/
inductive Submitted (P : Platform) (db : Db) (key : RunKey) (command_key : String) : Answer × Db → Prop
  | accepted {receipt : DecisionReceipt} {db' : Db}
      (added : Committed P (db.runs key) receipt command_key (db'.runs key))
      (elsewhere : ∀ key', key' ≠ key → db'.runs key' = db.runs key') :
      Submitted P db key command_key (.accepted receipt true, db')
  | replayed {receipt : DecisionReceipt}
      (on_record : ∃ digest, (db.runs key).scheduling_decisions.get? command_key = some ⟨digest, receipt⟩) :
      Submitted P db key command_key (.accepted receipt false, db)
  | refused {answer : Answer} (not_accepted : answer.accepts = false) :
      Submitted P db key command_key (answer, db)

theorem decisionReplay_some (h : decisionReplay tables command_key digest = .ok (some receipt)) :
    tables.scheduling_decisions.get? command_key = some ⟨digest, receipt⟩ := by
  unfold decisionReplay at h
  split at h
  case h_1 row hrow =>
    split at h
    case isTrue hdigest => cases h; rw [hrow, ← hdigest]
    · cases h
  · split at h
    · cases h
    · split at h <;> cases h

theorem submitDecision_submitted (P : Platform) (db : Db) (key : RunKey) (grant_id : String)
    (payload : Json) (principal : Principal) (command_key : String) (clock : Nat → Rat) :
    Submitted P db key command_key (submitDecision P db key grant_id payload principal command_key clock) := by
  unfold submitDecision
  split
  · exact .refused rfl
  case h_2 submission hread =>
    obtain ⟨rfl, -, rfl⟩ := readSubmission_ok hread
    split
    case h_1 receipt fresh db' hdecided =>
      rcases decisionTransaction_ok hdecided with
        ⟨rfl, rfl, hrecord⟩ | ⟨rfl, grant, current, plan, tables, hd, rfl⟩
      · exact .replayed ⟨submission.digest, decisionReplay_some hrecord⟩
      · refine .accepted ?_ fun key' hkey => Db.setRun_runs_of_ne hkey
        rw [Db.setRun_runs_self]
        exact hd.added
    · exact .refused rfl
    · split <;> exact .refused rfl

theorem answerPending_receipts (pending : Pending) (now : Rat) (key : RunKey) :
    ∃ rejections, (answerPending P db pending now).2.runs key =
      { db.runs key with scheduling_decision_rejections := rejections } := by
  unfold answerPending recordRejection
  cases owned P db pending.submission.key.project_id with
  | error => exact ⟨_, rfl⟩
  | ok =>
    simp only
    cases hrow : (db.runs pending.submission.key).scheduling_decision_rejections.get?
        pending.submission.command_key with
    | some existing =>
      by_cases hsame : existing.digest = pending.submission.digest
      · simp only [hsame, if_true]; exact ⟨_, rfl⟩
      · simp only [hsame, if_false]; exact ⟨_, rfl⟩
    | none =>
      simp only [Db.setRun_runs]
      split
      case isTrue hkey => rw [hkey]; exact ⟨_, rfl⟩
      · exact ⟨_, rfl⟩

theorem revisions_changed (request : Request) (h : ((store.serve P request).db.runs key).task_graph_revisions ≠
      (store.db.runs key).task_graph_revisions) : ∃ grant_id payload principal command_key clock receipt db',
      request = .submitDecision key grant_id payload principal command_key clock ∧
      submitDecision P store.db key grant_id payload principal command_key clock =
        (.accepted receipt true, db') := by
  have hmove := (serve_effect (P := P) store request).revisions key
  generalize hafter : (store.serve P request).db.runs key = after at h hmove
  cases hmove with
  | kept same =>
    simp only [RunTables.history, Prod.mk.injEq] at same
    exact absurd same.2.2.1 h
  | created => exact absurd rfl h
  | @decided grant_id command_key clock receipt _ payload principal sent added =>
    subst sent
    have hs := submitDecision_submitted P store.db key grant_id payload principal command_key clock
    change (submitDecision P store.db key grant_id payload principal command_key clock).2.runs key = _
      at hafter
    refine ⟨grant_id, payload, principal, command_key, clock, ?_⟩
    generalize submitDecision P store.db key grant_id payload principal command_key clock = answered
      at hs hafter ⊢
    cases hs with
    | accepted => exact ⟨_, _, rfl, rfl⟩
    | replayed | refused => subst hafter; exact absurd rfl h

/-- The revisions of a run are a chain from the first one up to its pointer, each
named by the next under the digest it is stored with, and they stay as they are.
Every accepted decision adds exactly one, no two decisions are accepted against
one base, nothing else adds any, and a refused decision leaves no trace but its
receipt. -/
theorem revision_chain (h : (schedulingStore P).Reach System.free store) (key : RunKey) :
    RevisionChain P (store.db.runs key) ∧
    (∀ later, (schedulingStore P).Path System.free store later →
      ∀ k row, (store.db.runs key).task_graph_revisions.get? k = some row →
        (later.db.runs key).task_graph_revisions.get? k = some row) ∧
    (∀ grant_id payload principal command_key clock, Submitted P store.db key command_key
        (submitDecision P store.db key grant_id payload principal command_key clock)) ∧
    (∀ request, ((store.serve P request).db.runs key).task_graph_revisions ≠
        (store.db.runs key).task_graph_revisions → ∃ grant_id payload principal command_key clock receipt db',
        request = .submitDecision key grant_id payload principal command_key clock ∧
        submitDecision P store.db key grant_id payload principal command_key clock =
          (.accepted receipt true, db')) ∧
    ∀ pending now, ∃ rejections, (answerPending P store.db pending now).2.runs key =
      { store.db.runs key with scheduling_decision_rejections := rejections } := by
  refine ⟨revisions_chained h key, ?_, ?_, fun request => revisions_changed request, ?_⟩
  · exact fun later hpath k row hrow => path_keeps_revisions h hpath hrow
  · exact submitDecision_submitted P store.db key
  · exact fun pending now => answerPending_receipts pending now key

/-- The run with one decision has a chain of one revision. -/
theorem revision_chain_ready : ∃ store, store = Sample.after Sample.ready ∧
      (store.db.runs Sample.key).task_graph_current = some 1 ∧
      RevisionChain Sample.platform (store.db.runs Sample.key) :=
  ⟨_, rfl, by decide +kernel, (revision_chain (Sample.after_reach Sample.ready) Sample.key).1⟩

end Karajan.Scheduling
