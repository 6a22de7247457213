import Karajan.Scheduling.Effects

/-!
# What a request does to tasks, claims and the ledger

Three requests touch them: an accepted decision plans the tasks of its run, a
claim rewrites one task and adds a ledger row, and a report rewrites one task
and may release one row. Every other request leaves them alone.
-/

namespace Karajan.Scheduling

open Dict Check
variable {store : Store} {db db' : Db} {id : String}

def Db.tasks (db : Db) (key : RunKey) : Dict String (Row Task) := (db.runs key).scheduling_tasks

def Db.claims (db : Db) (key : RunKey) : Dict String (Row Claim) := (db.runs key).task_claims

theorem mem_ledgerOf :
    record ∈ ledgerOf db key ↔ (∃ claim_id, db.budget_consumption.get? claim_id = some record) ∧
      record.project_id = key.project_id ∧ record.run_id = key.run_id := by
  simp [ledgerOf, mem_values]

-- Writing the planned tasks

theorem get?_foldl_byName (written : Dict String μ) (rows : Dict String ν) (f : μ → ν) :
    ((written.entries.insertionSort byName).foldl (fun rows e => rows.put e.1 (f e.2)) rows).get? id =
      match written.get? id with
      | some v => some (f v)
      | none => rows.get? id := by
  have hperm := List.perm_insertionSort byName written.entries
  have hnodup : ((written.entries.insertionSort byName).map Prod.fst).Nodup :=
    (hperm.map Prod.fst).nodup_iff.mpr written.nodup
  have hput := get?_foldl_put (d := rows) (k := id) (f := fun _ => f) hnodup
  rw [lookup_perm written.nodup hperm] at hput
  exact hput

theorem get?_writeTasks : (writeTasks plan tasks).get? id = match plan.working.get? id with
      | some document => some ⟨document.digest, document⟩
      | none => tasks.get? id := by
  refine (get?_foldl_byName plan.working tasks fun document => ⟨document.digest, document⟩).trans ?_
  cases plan.working.get? id <;> rfl

theorem get?_writeExpansions : (writeExpansions plan expansions).get? id = match plan.expansions.get? id with
      | some expansion => some expansion
      | none => expansions.get? id := by
  refine (get?_foldl_byName plan.expansions expansions fun expansion => expansion).trans ?_
  cases plan.expansions.get? id <;> rfl

theorem tasksOf_ok (h : tasksOf P tables = .ok tasks) :
    tasks.get? id = (tables.scheduling_tasks.get? id).map Row.record := by
  simp only [tasksOf, bind_ok, pure_ok] at h
  obtain ⟨_, -, rfl⟩ := h
  rw [get?_mapValues]

structure Adjudicated (P : Platform) (tables : RunTables) (submission : Submission)
    (clock : Nat → Rat) (grant : Grant) (current : Nat) (plan : PlannedDecision) : Prop where
  run : ∃ run, runRow P tables = .ok run
  granted : grantRow P tables submission.parsed.grant_id = .ok grant
  live : requireChainLive P tables grant (clock 0) = .ok ()
  base : requireBase tables submission.parsed = .ok current
  accepted : ∃ ctx, PlanAccepted ctx plan ∧ tasksOf P tables = .ok ctx.tasks ∧
    ctx.revision = current + 1

theorem adjudicatePlan_ok (h : adjudicatePlan P tables submission clock = .ok (grant, current, plan)) :
    Adjudicated P tables submission clock grant current plan := by
  simp only [adjudicatePlan, bind_ok, pair_ok] at h
  obtain ⟨run, hrun, grant', hgrant, _, hlive, _, -, current', hbase, _, -, tasks, htasks,
    expansions, -, plan', hplan, rfl, rfl, rfl⟩ := h
  exact ⟨⟨run, hrun⟩, hgrant, hlive, hbase, _, planDecision_ok hplan, htasks, rfl⟩

structure CommittedTables (P : Platform) (key : RunKey) (before : RunTables) (plan : PlannedDecision)
    (parsed : ParsedDecision) (grant : Grant) (principal : Principal)
    (command_key digest : String) (current : Nat) (now : Rat) (receipt : DecisionReceipt)
    (after : RunTables) : Prop where
  pointer : before.task_graph_current = some current
  fresh_revision : before.task_graph_revisions.get? plan.revision = none
  fresh_decision : before.scheduling_decisions.get? command_key = none
  of_receipt : receipt = decisionReceipt plan parsed grant principal
    (graphDocument P key.run_id plan parsed grant current (parentDigest before current) now) now
  after : after = { before with
    task_graph_current := some plan.revision
    scheduling_tasks := writeTasks plan.toPlan before.scheduling_tasks
    scheduling_task_versions := writeVersions plan.toPlan before.scheduling_task_versions
    task_expansions := writeExpansions plan.toPlan before.task_expansions
    task_graph_revisions := before.task_graph_revisions.put plan.revision
      ⟨(graphDocument P key.run_id plan parsed grant current (parentDigest before current) now).digest,
        graphDocument P key.run_id plan parsed grant current (parentDigest before current) now⟩
    scheduling_decisions := before.scheduling_decisions.put command_key ⟨digest, receipt⟩ }

theorem commitDecision_ok
    (h : commitDecision P key before plan parsed grant principal command_key sent current now =
      .ok (receipt, after)) :
    CommittedTables P key before plan parsed grant principal command_key sent current now receipt after := by
  simp only [commitDecision, bind_ok, ensure_ok, decide_eq_true_eq, insertRow_ok, pair_ok] at h
  obtain ⟨_, hpointer, _, ⟨hrevision, rfl⟩, _, ⟨hdecision, rfl⟩, rfl, rfl⟩ := h
  exact ⟨hpointer, hrevision, hdecision, rfl, rfl⟩

-- The four kinds of request

structure TasksKept (db db' : Db) : Prop where
  tasks : ∀ key, db'.tasks key = db.tasks key
  claims : ∀ key, db'.claims key = db.claims key
  ledger : db'.budget_consumption = db.budget_consumption

structure TasksPlanned (db db' : Db) (key : RunKey) : Prop where
  elsewhere : ∀ key', key' ≠ key → db'.tasks key' = db.tasks key'
  kept : ∀ id old, (db.tasks key).get? id = some old →
    ∃ new, (db'.tasks key).get? id = some new ∧ Planned old.record new.record
  added : ∀ id new, (db'.tasks key).get? id = some new → (db.tasks key).get? id = none → Unclaimed id new.record
  acyclic : ∃ effective : Dict String Task, dependencyCycle effective = none ∧
    ∀ id row, (db'.tasks key).get? id = some row → row.record.live = true → effective.get? id = some row.record
  claims : ∀ key, db'.claims key = db.claims key
  ledger : db'.budget_consumption = db.budget_consumption

structure TaskRewritten (db db' : Db) (key : RunKey) (task_id : String) (old new : Task) : Prop where
  found : ∃ row, (db.tasks key).get? task_id = some row ∧ row.record = old
  elsewhere : ∀ key', key' ≠ key → db'.tasks key' = db.tasks key'
  others : ∀ id, id ≠ task_id → (db'.tasks key).get? id = (db.tasks key).get? id
  written : (db'.tasks key).get? task_id = some ⟨new.digest, new⟩

structure TaskClaimed (P : Platform) (db db' : Db) (key : RunKey) (payload : Json)
    (principal : Principal) (command_key : String) (clock : Nat → Rat) (task_id claim_id : String)
    (old : Task) (grant : Grant) : Prop where
  rewritten : TaskRewritten db db' key task_id old (claimedTask P old principal claim_id (clock 1))
  names : ∃ claim_key, NamesTask payload claim_key task_id
  ready : old.state ≠ .completed ∧ old.state ≠ .failed ∧ old.state ≠ .cancelled ∧
    old.state ≠ .superseded
  unclaimed : old.state = .claimed → claimForTask (db.runs key) task_id = none
  claims_elsewhere : ∀ key', key' ≠ key → db'.claims key' = db.claims key'
  unanswered : (db.claims key).get? command_key = none
  claims : ∃ claim, db'.claims key = (db.claims key).put command_key claim ∧
    claim.record.task_id = old.task_id
  fresh : db.budget_consumption.get? claim_id = none
  ledger : db'.budget_consumption = db.budget_consumption.put claim_id
    (consumptionRecord P key claim_id task_id grant old (clock 1))

structure TaskReported (P : Platform) (db db' : Db) (key : RunKey) (task_id claim_id : String)
    (payload : Json) (principal : Principal) (trusted : Bool) (now : Rat) (report : ExecutionReport)
    (old : Task) : Prop where
  rewritten : TaskRewritten db db' key task_id old (reportedTask P old report principal trusted now)
  read : readReport payload = .ok report
  claimed : old.claim_id = some claim_id
  holds : trusted = true ∨ old.claimed_by = some principal.credential_id
  claims : ∀ key, db'.claims key = db.claims key
  ledger : db'.budget_consumption = reportedLedger P db old claim_id report principal trusted now

inductive TaskEffect (P : Platform) (store : Store) : Request → Db → Prop
  | kept {db' : Db} (kept : TasksKept store.db db') : TaskEffect P store request db'
  | planned {db' : Db} {key : RunKey} (planned : TasksPlanned store.db db' key) :
      TaskEffect P store (.submitDecision key grant_id payload principal command_key clock) db'
  | claimed {db' : Db} {key : RunKey} (claimed : TaskClaimed P store.db db' key payload principal command_key clock task_id
      claim_id old grant) :
      TaskEffect P store (.claim key payload principal command_key clock) db'
  | reported {db' : Db} {key : RunKey} (reported : TaskReported P store.db db' key task_id claim_id payload principal trusted
      now report old) :
      TaskEffect P store (.reportExecution key task_id payload principal trusted now) db'

theorem TasksKept.of_setRun (hr : db'.runs = (db.setRun key tables).runs)
    (ht : tables.scheduling_tasks = (db.runs key).scheduling_tasks)
    (hc : tables.task_claims = (db.runs key).task_claims)
    (hl : db'.budget_consumption = db.budget_consumption) : TasksKept db db' where
  tasks key' := by
    simp only [Db.tasks, hr]
    exact Db.setRun_frame RunTables.scheduling_tasks ht
  claims key' := by
    simp only [Db.claims, hr]
    exact Db.setRun_frame RunTables.task_claims hc
  ledger := hl

theorem Decided.tasksPlanned (h : Decided P db submission clock grant current plan receipt tables) :
    TasksPlanned db (db.setRun submission.key tables) submission.key := by
  obtain ⟨ctx, hplan, htasks, -⟩ := (adjudicatePlan_ok h.planned).accepted
  have hafter := (commitDecision_ok h.committed).after
  have hnew : ∀ id, ((db.setRun submission.key tables).tasks submission.key).get? id =
      match plan.working.get? id with
      | some document => some ⟨document.digest, document⟩
      | none => (db.tasks submission.key).get? id := by
    intro id
    simp only [Db.tasks, Db.setRun_runs_self, hafter]
    exact get?_writeTasks
  have hctx : ∀ id, ctx.tasks.get? id = ((db.tasks submission.key).get? id).map Row.record :=
    fun id => tasksOf_ok htasks
  refine ⟨?_, ?_, ?_, ?_, ?_, rfl⟩
  · intro key' hne
    simp only [Db.tasks, Db.setRun_runs_of_ne hne]
  · intro id old hold
    obtain ⟨new, hw, hp⟩ := hplan.inv.kept id old.record (by rw [hctx, hold]; rfl)
    exact ⟨⟨new.digest, new⟩, by rw [hnew, hw], hp⟩
  · intro id new hrow hnone
    rw [hnew] at hrow
    cases hw : plan.working.get? id with
    | none => rw [hw] at hrow; simp only at hrow; rw [hnone] at hrow; cases hrow
    | some document =>
      rw [hw] at hrow; cases hrow
      exact hplan.inv.added id document hw (by rw [hctx, hnone]; rfl)
  · refine ⟨plan.effective, hplan.acyclic, ?_⟩
    intro id row hrow hlive
    rw [hplan.effective, get?_filter]
    rw [hnew] at hrow
    cases hw : plan.working.get? id with
    | some document => rw [hw] at hrow; cases hrow; exact ⟨rfl, hlive⟩
    | none =>
      -- every task the run had is among the planned ones
      rw [hw] at hrow
      have hold : (db.tasks submission.key).get? id = some row := hrow
      obtain ⟨new, hw', -⟩ := hplan.inv.kept id row.record (by rw [hctx, hold]; rfl)
      rw [hw] at hw'; cases hw'
  · intro key'
    exact Db.setRun_frame RunTables.task_claims (by rw [hafter])

theorem TaskRewritten.of_update (hfound : ∃ row, (db.tasks key).get? id = some row ∧ row.record = old)
    (hr : db'.runs = (db.setRun key tables).runs)
    (ht : tables.scheduling_tasks = (updateTask (db.runs key) id new).scheduling_tasks) : TaskRewritten db db' key id old new where
  found := hfound
  elsewhere key' hne := by simp only [Db.tasks, hr, Db.setRun_runs_of_ne hne]
  others id' hne := by
    simp [Db.tasks, hr, Db.setRun_runs_self, ht, updateTask, get?_modify, hne]
  written := by
    obtain ⟨row, hrow, -⟩ := hfound
    simp only [Db.tasks] at hrow
    simp [Db.tasks, hr, Db.setRun_runs_self, ht, updateTask, get?_modify, hrow]

theorem found_of_tasksOf (h : ∃ tasks, tasksOf P (db.runs key) = .ok tasks ∧ tasks.get? id = some document) :
    ∃ row, (db.tasks key).get? id = some row ∧ row.record = document := by
  obtain ⟨tasks, htasks, hget⟩ := h
  rw [tasksOf_ok htasks, Option.map_eq_some_iff] at hget
  exact hget

section
variable (h : Claimed P db key payload command_key clock claim_key task_id document grant admission)
include h

theorem Claimed.ready : document.state ≠ .completed ∧ document.state ≠ .failed ∧ document.state ≠ .cancelled ∧
      document.state ≠ .superseded := by
  obtain ⟨_, -, -, hready⟩ := h.unchanged
  simp only [requireReady, bind_ok, ensure_ok] at hready
  obtain ⟨_, hstate, -⟩ := hready
  simpa [and_assoc] using hstate

theorem Claimed.taskClaimed :
    TaskClaimed P db (claimedDb P db key principal command_key clock claim_key task_id document grant
      admission digest) key payload principal command_key clock task_id (claimId P key claim_key)
      document grant := by
  obtain ⟨tasks, htasks, hget, -⟩ := h.unchanged
  refine ⟨?_, ⟨claim_key, h.names⟩, h.ready, h.unclaimed, ?_, h.unanswered, ?_, h.fresh, rfl⟩
  · exact .of_update (found_of_tasksOf ⟨tasks, htasks, hget⟩) rfl rfl
  · intro key' hne
    simp only [Db.claims, claimedDb]
    rw [Db.setRun_runs_of_ne hne]
  · refine ⟨⟨digest, claimDocument P key document grant admission principal
      (claimId P key claim_key) (clock 1)⟩, ?_, rfl⟩
    simp only [Db.claims, claimedDb, Db.setRun_runs_self]

end

theorem Reporting.taskReported
    (h : Reporting P db key task_id payload principal trusted document claim_id report) :
    TaskReported P db (reportedDb P db key task_id document claim_id report principal trusted now) key
      task_id claim_id payload principal trusted now report document := by
  refine ⟨?_, h.read, h.claimed, h.holds, ?_, rfl⟩
  · exact .of_update (found_of_tasksOf h.unchanged) rfl rfl
  · intro key'
    exact Db.setRun_frame RunTables.task_claims rfl

theorem Effect.tasks (h : Effect P store request db') : TaskEffect P store request db' := by
  cases h with
  | unchanged | resources | credentialIssued => exact .kept ⟨fun _ => rfl, fun _ => rfl, rfl⟩
  | runCreated | grantIssued | grantDelegated | grantRevoked | expansionCreated | refusalRecorded =>
    exact .kept (.of_setRun rfl rfl rfl rfl)
  | decided submission grant current plan receipt tables read decided =>
    cases (readSubmission_ok read).1
    exact .planned decided.tasksPlanned
  | claimed _ _ _ _ _ _ claimed => exact .claimed claimed.taskClaimed
  | reported _ _ _ reporting => exact .reported reporting.taskReported

-- One task

inductive TaskMove (P : Platform) : Request → RunKey → String → Task → Task → Prop
  | same {key : RunKey} {id : String} : TaskMove P request key id task task
  | planned {key : RunKey} {id : String} (planned : Planned old new) :
      TaskMove P (.submitDecision key grant_id payload principal command_key clock) key id old new
  | claimed {key : RunKey} {id : String} (names : NamesTask payload claim_key id)
      (ready : old.state ≠ .completed ∧ old.state ≠ .failed ∧ old.state ≠ .cancelled ∧
        old.state ≠ .superseded) :
      TaskMove P (.claim key payload principal command_key clock) key id old
        (claimedTask P old principal claim_id (clock 1))
  | reported {key : RunKey} {id : String} {report : ExecutionReport}
      (read : readReport payload = .ok report) (claimed : old.claim_id = some claim_id)
      (holds : trusted = true ∨ old.claimed_by = some principal.credential_id) :
      TaskMove P (.reportExecution key id payload principal trusted now) key id old
        (reportedTask P old report principal trusted now)

theorem TaskRewritten.moves
    (h : TaskRewritten db db' key task_id old new) (hm : TaskMove P request key task_id old new) (hrow : (db.tasks key').get? id = some row) :
    ∃ row', (db'.tasks key').get? id = some row' ∧ TaskMove P request key' id row.record row'.record := by
  by_cases hkey : key' = key
  · subst hkey
    by_cases hid : id = task_id
    · subst hid
      obtain ⟨row', hrow', rfl⟩ := h.found
      rw [hrow] at hrow'; cases hrow'
      exact ⟨_, h.written, hm⟩
    · exact ⟨row, by rw [h.others id hid, hrow], .same⟩
  · exact ⟨row, by rw [h.elsewhere key' hkey, hrow], .same⟩

theorem TasksPlanned.moves (h : TasksPlanned db db' key) (hrow : (db.tasks key').get? id = some row) :
    ∃ row', (db'.tasks key').get? id = some row' ∧
      TaskMove P (.submitDecision key grant_id payload principal command_key clock) key' id row.record
        row'.record := by
  by_cases hkey : key' = key
  · subst hkey
    obtain ⟨new, hnew, hp⟩ := h.kept id row hrow
    exact ⟨new, hnew, .planned hp⟩
  · exact ⟨row, by rw [h.elsewhere key' hkey, hrow], .same⟩

theorem serve_moves (P : Platform) (request : Request) (hrow : (store.db.tasks key).get? id = some row) :
    ∃ row', ((store.serve P request).db.tasks key).get? id = some row' ∧
      TaskMove P request key id row.record row'.record := by
  cases (serve_effect store request).tasks with
  | kept kept => exact ⟨row, by rw [kept.tasks, hrow], .same⟩
  | planned planned => exact planned.moves hrow
  | claimed claimed =>
    obtain ⟨claim_key, hnames⟩ := claimed.names
    exact claimed.rewritten.moves (.claimed hnames claimed.ready) hrow
  | reported reported =>
    exact reported.rewritten.moves (.reported reported.read reported.claimed reported.holds) hrow

end Karajan.Scheduling
