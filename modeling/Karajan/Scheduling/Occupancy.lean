import Karajan.Scheduling.TaskLaws

/-!
# Occupancy

A task is occupied while a ledger row of its is unreleased. The invariant is
that such a row is always the one of the task's current claim, so there is at
most one. What keeps it is that a task is handed out only while nothing holds
it, and there the code looks at the state `claimed` alone: a task whose
execution is unknown is still occupied, and can be handed out again.
-/

namespace Karajan.Scheduling

open List Dict Check
variable {store : Store} {id : String}

def unreleased (db : Db) (key : RunKey) (id : String) : List Consumption :=
  (ledgerOf db key).filter fun record => record.task_id = id && !record.released

theorem mem_unreleased : record ∈ unreleased db key id ↔
      (∃ claim_id, db.budget_consumption.get? claim_id = some record) ∧
        record.project_id = key.project_id ∧ record.run_id = key.run_id ∧ record.task_id = id ∧
        record.released = false := by
  simp only [unreleased, List.mem_filter, mem_ledgerOf, Bool.and_eq_true, decide_eq_true_eq, Bool.not_eq_true']
  tauto

def endedStates : List TaskState := [.completed, .failed, .cancelled, .superseded]

-- The invariant

structure TaskSound (db : Db) (key : RunKey) (id : String) (task : Task) : Prop where
  named : task.task_id = id
  queued : task.state = .queued → task.claim_id = none
  unblocked : task.state ≠ .blocked
  held : task.state = .claimed → task.claim_id ≠ none
  handed : task.claim_id ≠ none → ∃ command_key claim,
    (db.claims key).get? command_key = some claim ∧ claim.record.task_id = id
  settled : reconciled task = true → task.state ∈ endedStates ∧ unreleased db key id = []

/-- Every task of a run is sound, and a row that holds one is its current claim. -/
structure Occupied (db : Db) (key : RunKey) : Prop where
  sound : ∀ id row, (db.tasks key).get? id = some row → TaskSound db key id row.record
  holder : ∀ id, ∀ record ∈ unreleased db key id,
    ∃ row, (db.tasks key).get? id = some row ∧ row.record.claim_id = some record.claim_id

def LedgerNamed (db : Db) : Prop :=
  ∀ claim_id record, db.budget_consumption.get? claim_id = some record → record.claim_id = claim_id

theorem unreleased_length (hn : LedgerNamed db) (ho : Occupied db key) : (unreleased db key id).length ≤ 1 := by
  have hsub : unreleased db key id = ((db.budget_consumption.filter fun _ record =>
      (record.project_id = key.project_id && record.run_id = key.run_id) &&
        (record.task_id = id && !record.released)).entries).map Prod.snd := by
    simp only [unreleased, ledgerOf, Dict.values, Dict.filter, List.filter_map, List.filter_filter]
    congr 1
    apply filter_congr
    simp [Bool.and_comm, Bool.and_assoc]
  rw [hsub, length_map]
  apply length_filter_le_one
  -- both rows are the task's current claim, so they have one name
  have hclaim : ∀ claim_id record, db.budget_consumption.get? claim_id = some record →
      ((record.project_id = key.project_id && record.run_id = key.run_id) &&
        (record.task_id = id && !record.released)) = true →
      ∃ row, (db.tasks key).get? id = some row ∧ row.record.claim_id = some claim_id := by
    intro claim_id record hget hsel
    simp only [Bool.and_eq_true, decide_eq_true_eq, Bool.not_eq_true'] at hsel
    obtain ⟨⟨hp, hr⟩, ht, hu⟩ := hsel
    rw [← hn claim_id record hget]
    exact ho.holder id record (mem_unreleased.mpr ⟨⟨claim_id, hget⟩, hp, hr, ht, hu⟩)
  intro k v k' v' hk hk' hp hp'
  obtain ⟨row, hrow, hc⟩ := hclaim k v hk hp
  obtain ⟨row', hrow', hc'⟩ := hclaim k' v' hk' hp'
  rw [hrow] at hrow'; cases hrow'
  rw [hc] at hc'; cases hc'
  rfl

-- The ledger

theorem unreleased_congr (h : db'.budget_consumption = db.budget_consumption) :
    unreleased db' key id = unreleased db key id := by
  simp only [unreleased, ledgerOf, h]

theorem mem_ledgerOf_put (hl : db'.budget_consumption = db.budget_consumption.put claim_id new)
    (h : record ∈ ledgerOf db' key) : record = new ∨ record ∈ ledgerOf db key := by
  rw [mem_ledgerOf] at h ⊢
  obtain ⟨⟨k, hk⟩, hrun⟩ := h
  rw [hl, get?_put] at hk
  split at hk
  · cases hk; exact .inl rfl
  · exact .inr ⟨⟨k, hk⟩, hrun⟩

theorem mem_unreleased_put (hl : db'.budget_consumption = db.budget_consumption.put claim_id new)
    (h : record ∈ unreleased db' key id) : record = new ∨ record ∈ unreleased db key id := by
  obtain ⟨hm, hof⟩ := List.mem_filter.mp h
  exact (mem_ledgerOf_put hl hm).imp_right fun hold => List.mem_filter.mpr ⟨hold, hof⟩

theorem get?_releaseConsumption : (releaseConsumption P ledger claim_id outcome reconciled_by now).get? k =
    (ledger.get? k).map fun record => if k = claim_id ∧ record.released = false then
      record.release P outcome reconciled_by now else record := by
  by_cases hid : k = claim_id
  · subst hid
    cases hget : ledger.get? k with
    | none => simp [releaseConsumption, hget]
    | some record => cases hu : record.released <;> simp [releaseConsumption, hget, hu]
  · unfold releaseConsumption
    split <;> [skip; split] <;> simp [hid, get?_put_of_ne (Ne.symm hid)]

theorem held_of_unreleased
    (h : (releaseConsumption P ledger claim_id outcome reconciled_by now).get? k = some record)
    (hu : record.released = false) : ledger.get? k = some record ∧ k ≠ claim_id := by
  rw [get?_releaseConsumption, Option.map_eq_some_iff] at h
  obtain ⟨held, hget, rfl⟩ := h
  split at hu
  · cases hu
  case isFalse hne => exact ⟨by rw [if_neg hne, hget], fun hid => hne ⟨hid, hu⟩⟩

/-- A report holds no row that was not held before, and one that settles the
task lets go of the row of its claim. -/
theorem mem_unreleased_reported
    (hl : db'.budget_consumption = reportedLedger P db document claim_id report principal trusted now)
    (h : record ∈ unreleased db' key id) : record ∈ unreleased db key id ∧
      ((trusted && !reconciled document && terminalOutcomes.contains report.outcome) = true →
        LedgerNamed db → record.claim_id ≠ claim_id) := by
  rw [mem_unreleased] at h ⊢
  obtain ⟨⟨k, hk⟩, hp, hr, ht, hu⟩ := h
  rw [hl, reportedLedger] at hk
  split at hk
  · obtain ⟨hget, hne⟩ := held_of_unreleased hk hu
    refine ⟨⟨⟨k, hget⟩, hp, hr, ht, hu⟩, fun _ hn => ?_⟩
    rw [hn k record hget]
    exact hne
  case isFalse hc => exact ⟨⟨⟨k, hk⟩, hp, hr, ht, hu⟩, fun hc' => absurd hc' hc⟩

theorem LedgerNamed.put (h : LedgerNamed db)
    (hl : db'.budget_consumption = db.budget_consumption.put claim_id new)
    (hid : new.claim_id = claim_id) : LedgerNamed db' := by
  intro k record hk
  rw [hl, get?_put] at hk
  split at hk
  case isTrue e => cases hk; exact hid.trans e
  · exact h k record hk

theorem LedgerNamed.reported (h : LedgerNamed db)
    (hl : db'.budget_consumption = reportedLedger P db document claim_id report principal trusted now) :
    LedgerNamed db' := by
  intro k record hk
  rw [hl, reportedLedger] at hk
  split at hk
  · rw [get?_releaseConsumption, Option.map_eq_some_iff] at hk
    obtain ⟨held, hget, rfl⟩ := hk
    split <;> exact h k held hget
  · exact h k record hk

-- One request

/-- A new claim command names a task whose execution is unknown and still held. -/
def claimsUnknown (store : Store) : Request → Bool
  | .claim key payload _ command_key _ =>
    !(store.db.claims key).contains command_key &&
      (namedTask payload).any fun id =>
        ((store.db.tasks key).get? id).any fun row =>
          row.record.state = .unknown && !(unreleased store.db key id).isEmpty
  | _ => false

def SingleHandover (store : Store) (request : Request) : Prop := claimsUnknown store request = false

instance : Decidable (SingleHandover store request) :=
  inferInstanceAs (Decidable (claimsUnknown store request = false))

theorem claimForTask_none {claim : Row Claim} (h : claimForTask tables id = none)
    (hk : tables.task_claims.get? command_key = some claim) : claim.record.task_id ≠ id := by
  simp only [claimForTask, Option.map_eq_none_iff, find?_eq_none, mem_insertionSort] at h
  simpa using h _ (get?_eq_some.mp hk)

theorem TaskSound.mono (h : TaskSound db key id task)
    (hc : ∀ command_key claim, (db.claims key).get? command_key = some claim →
      (db'.claims key).get? command_key = some claim)
    (hu : ∀ record ∈ unreleased db' key id, record ∈ unreleased db key id) : TaskSound db' key id task := by
  refine { h with handed := ?_, settled := ?_ }
  · intro hid
    obtain ⟨command_key, claim, hk, ht⟩ := h.handed hid
    exact ⟨command_key, claim, hc command_key claim hk, ht⟩
  · intro hr
    obtain ⟨he, hnone⟩ := h.settled hr
    refine ⟨he, List.eq_nil_iff_forall_not_mem.mpr fun record hm => ?_⟩
    have hold := hu record hm
    rw [hnone] at hold; cases hold

theorem Occupied.frame (ho : Occupied db key) (ht : db'.tasks key = db.tasks key)
    (hc : db'.claims key = db.claims key)
    (hu : ∀ id, ∀ record ∈ unreleased db' key id, record ∈ unreleased db key id) : Occupied db' key := by
  constructor
  · intro id row hrow
    rw [ht] at hrow
    exact (ho.sound id row hrow).mono (fun _ _ hk => hc ▸ hk) (hu id)
  · intro id record hm
    rw [ht]
    exact ho.holder id record (hu id record hm)

theorem Occupied.kept (h : TasksKept db db') (ho : Occupied db key) : Occupied db' key :=
  ho.frame (h.tasks key) (h.claims key) fun _ _ hm => by rwa [unreleased_congr h.ledger] at hm

theorem TaskSound.planned (h : TaskSound db key id old) (hp : Planned old new) : TaskSound db key id new where
  named := hp.task_id.trans h.named
  queued hq := by
    rcases hp.state with he | ⟨-, he⟩
    · rw [hp.claim_id]; exact h.queued (he ▸ hq)
    · rw [he] at hq; cases hq
  unblocked := by
    rcases hp.state with he | ⟨-, he⟩
    · rw [he]; exact h.unblocked
    · rw [he]; decide
  held hc := by
    rcases hp.state with he | ⟨-, he⟩
    · rw [hp.claim_id]; exact h.held (he ▸ hc)
    · rw [he] at hc; cases hc
  handed hid := h.handed (hp.claim_id ▸ hid)
  settled hr := by
    have hold : reconciled old = true := by rwa [reconciled, ← hp.reconciliation_outcome]
    obtain ⟨he, hu⟩ := h.settled hold
    rcases hp.state with hs | ⟨-, hs⟩
    · exact ⟨hs ▸ he, hu⟩
    · exact ⟨by rw [hs]; decide, hu⟩

theorem TaskSound.unclaimed (h : Unclaimed id task) : TaskSound db key id task where
  named := h.task_id
  queued _ := h.claim_id
  unblocked := by rw [h.state]; decide
  held hc := by rw [h.state] at hc; cases hc
  handed hid := absurd h.claim_id hid
  settled hr := by rw [reconciled, h.reconciliation_outcome] at hr; cases hr

theorem Occupied.planned (h : TasksPlanned db db' key) (ho : Occupied db key') : Occupied db' key' := by
  by_cases hkey : key' = key
  · subst hkey
    constructor
    · intro id row hrow
      have hsound : TaskSound db key' id row.record := by
        cases hold : (db.tasks key').get? id with
        | none => exact .unclaimed (h.added id row hrow hold)
        | some old =>
          obtain ⟨new, hnew, hp⟩ := h.kept id old hold
          rw [hrow] at hnew; cases hnew
          exact (ho.sound id old hold).planned hp
      refine hsound.mono ?_ ?_
      · intro _ _ hk; rw [h.claims]; exact hk
      · intro record hm; rwa [unreleased_congr h.ledger] at hm
    · intro id record hm
      rw [unreleased_congr h.ledger] at hm
      obtain ⟨old, hold, hc⟩ := ho.holder id record hm
      obtain ⟨new, hnew, hp⟩ := h.kept id old hold
      exact ⟨new, hnew, hp.claim_id.trans hc⟩
  · exact ho.frame (h.elsewhere key' hkey) (h.claims key') fun _ _ hm => by
      rwa [unreleased_congr h.ledger] at hm

theorem TaskClaimed.unheld {grant : Grant}
    (h : TaskClaimed P store.db db' key payload principal command_key clock id claim_id old grant)
    (hok : SingleHandover store (.claim key payload principal command_key clock)) (ho : Occupied store.db key) :
    unreleased store.db key id = [] := by
  obtain ⟨row, hrow, rfl⟩ := h.rewritten.found
  have hsound := ho.sound id row hrow
  have hnone : row.record.claim_id = none → unreleased store.db key id = [] := by
    intro hid
    refine List.eq_nil_iff_forall_not_mem.mpr fun record hm => ?_
    obtain ⟨row', hrow', hc⟩ := ho.holder id record hm
    rw [hrow] at hrow'; cases hrow'
    rw [hid] at hc; cases hc
  obtain ⟨hcompleted, hfailed, hcancelled, hsuperseded⟩ := h.ready
  cases hstate : row.record.state
  case queued => exact hnone (hsound.queued hstate)
  case blocked => exact absurd hstate hsound.unblocked
  case claimed =>
    -- a claimed task has a claim, and that claim is the answer
    obtain ⟨k, claim, hk, ht⟩ := hsound.handed (hsound.held hstate)
    exact absurd ht (claimForTask_none (h.unclaimed hstate) hk)
  case completed => exact absurd hstate hcompleted
  case failed => exact absurd hstate hfailed
  case cancelled => exact absurd hstate hcancelled
  case superseded => exact absurd hstate hsuperseded
  case unknown =>
    -- the state the code does not look at
    obtain ⟨claim_key, hnames⟩ := h.names
    simpa [SingleHandover, claimsUnknown, Dict.contains, h.unanswered, hnames.named, hrow, hstate] using hok

theorem Occupied.claimed
    (h : TaskClaimed P store.db db' key payload principal command_key clock id claim_id old grant)
    (hok : SingleHandover store (.claim key payload principal command_key clock))
    (ho : Occupied store.db key') (hkeyed : Occupied store.db key) : Occupied db' key' := by
  have hnone := h.unheld hok hkeyed
  by_cases hkey : key' = key
  · subst hkey
    obtain ⟨old_row, hold, hold'⟩ := h.rewritten.found
    have hsound := ho.sound id old_row hold
    rw [hold'] at hsound
    obtain ⟨claim, hclaims, hclaim⟩ := h.claims
    have hmono : ∀ k c, (store.db.claims key').get? k = some c → (db'.claims key').get? k = some c := by
      intro k c hk
      rw [hclaims, get?_put_new h.unanswered hk]
    constructor
    · intro id' row hrow
      by_cases hid : id' = id
      · subst hid
        rw [h.rewritten.written] at hrow; cases hrow
        refine ⟨hsound.named, nofun, nofun, nofun, ?_, ?_⟩
        · intro _
          exact ⟨command_key, claim, by rw [hclaims]; simp, hclaim.trans hsound.named⟩
        · -- a settled task has ended, and an ended one is not claimed
          intro hr
          obtain ⟨hcompleted, hfailed, hcancelled, hsuperseded⟩ := h.ready
          have hended := (hsound.settled hr).1
          simp only [endedStates, mem_cons, not_mem_nil, or_false] at hended
          tauto
      · rw [h.rewritten.others id' hid] at hrow
        refine (ho.sound id' row hrow).mono hmono fun record hm => ?_
        rcases mem_unreleased_put h.ledger hm with rfl | hm'
        · exact absurd (mem_unreleased.mp hm).2.2.2.1 (Ne.symm hid)
        · exact hm'
    · intro id' record hm
      rcases mem_unreleased_put h.ledger hm with rfl | hm'
      · cases (mem_unreleased.mp hm).2.2.2.1
        exact ⟨_, h.rewritten.written, rfl⟩
      · by_cases hid : id' = id
        · subst hid; rw [hnone] at hm'; cases hm'
        · rw [h.rewritten.others id' hid]
          exact ho.holder id' record hm'
  · refine ho.frame (h.rewritten.elsewhere key' hkey) (h.claims_elsewhere key' hkey) ?_
    intro id' record hm
    rcases mem_unreleased_put h.ledger hm with rfl | hm'
    · obtain ⟨-, hp, hr, -⟩ := mem_unreleased.mp hm
      exact absurd (RunKey.ext hp.symm hr.symm) hkey
    · exact hm'

theorem TaskReported.settles (h : TaskReported P db db' key id claim_id payload principal true now report old)
    (hout : terminalOutcomes.contains report.outcome = true) (hn : LedgerNamed db)
    (ho : Occupied db key) : unreleased db' key id = [] := by
  obtain ⟨row, hrow, rfl⟩ := h.rewritten.found
  refine List.eq_nil_iff_forall_not_mem.mpr fun record hm => ?_
  obtain ⟨hold, hother⟩ := mem_unreleased_reported h.ledger hm
  cases hr : reconciled row.record with
  | true => rw [((ho.sound id row hrow).settled hr).2] at hold; cases hold
  | false =>
    -- the row would be the one just released
    obtain ⟨row', hrow', hc⟩ := ho.holder id record hold
    rw [hrow] at hrow'; cases hrow'
    rw [h.claimed] at hc; cases hc
    exact hother (by rw [hr, hout]; rfl) hn rfl

theorem reportedState_kept (h : reportedState document trusted outcome = state)
    (hs : state = .queued ∨ state = .blocked ∨ state = .superseded) : document.state = state := by
  unfold reportedState at h
  split at h
  · cases outcome <;> rcases hs with rfl | rfl | rfl <;> first | exact h | cases h
  · split at h
    · rcases hs with rfl | rfl | rfl <;> cases h
    · exact h

theorem reportedState_settled (h : reconciled document = true) :
    reportedState document false outcome = document.state := by
  simp [reportedState, h]

theorem TaskSound.reported (h : TaskSound db key id old) (hclaim : old.claim_id = some claim_id)
    (hc : ∀ command_key claim, (db.claims key).get? command_key = some claim →
      (db'.claims key).get? command_key = some claim)
    (hu : ∀ record ∈ unreleased db' key id, record ∈ unreleased db key id)
    (hfree : trusted = true → terminalOutcomes.contains report.outcome = true → unreleased db' key id = []) :
    TaskSound db' key id (reportedTask P old report principal trusted now) where
  named := h.named
  queued hq := h.queued (reportedState_kept hq (by simp))
  unblocked hb := h.unblocked (reportedState_kept hb (by simp))
  held _ := by simp [hclaim]
  handed hid := (h.mono hc hu).handed hid
  settled hr := by
    cases trusted with
    | true =>
      have hout : terminalOutcomes.contains report.outcome = true := by simpa [reconciled] using hr
      refine ⟨?_, hfree rfl hout⟩
      revert hout
      cases hreport : report.outcome <;> simp [terminalOutcomes, reportedState, endedStates, hreport]
    | false =>
      have hold : reconciled old = true := by simpa [reconciled] using hr
      rw [reportedTask_state, reportedState_settled hold]
      exact (h.mono hc hu).settled hold

theorem Occupied.reported (h : TaskReported P db db' key id claim_id payload principal trusted now report old)
    (hn : LedgerNamed db) (ho : Occupied db key') : Occupied db' key' := by
  have hsub : ∀ id, ∀ record ∈ unreleased db' key' id, record ∈ unreleased db key' id :=
    fun _ _ hm => (mem_unreleased_reported h.ledger hm).1
  by_cases hkey : key' = key
  · subst hkey
    obtain ⟨old_row, hold, rfl⟩ := h.rewritten.found
    have hsound := ho.sound id old_row hold
    constructor
    · intro id' row hrow
      by_cases hid : id' = id
      · subst hid
        rw [h.rewritten.written] at hrow; cases hrow
        refine hsound.reported h.claimed (fun _ _ hk => h.claims key' ▸ hk) (hsub id') ?_
        rintro rfl hout
        exact h.settles hout hn ho
      · rw [h.rewritten.others id' hid] at hrow
        exact (ho.sound id' row hrow).mono (fun _ _ hk => h.claims key' ▸ hk) (hsub id')
    · intro id' record hm
      obtain ⟨row, hrow, hc⟩ := ho.holder id' record (hsub id' record hm)
      by_cases hid : id' = id
      · subst hid
        rw [hold] at hrow; cases hrow
        exact ⟨_, h.rewritten.written, hc⟩
      · exact ⟨row, by rw [h.rewritten.others id' hid, hrow], hc⟩
  · exact ho.frame (h.rewritten.elsewhere key' hkey) (h.claims key') hsub

-- Every run

structure Accounted (db : Db) : Prop where
  ledger : LedgerNamed db
  occupied : ∀ key, Occupied db key

theorem Accounted.initial (h : store.initial) : Accounted store.db := by
  obtain ⟨projects, rfl⟩ := h
  refine ⟨?_, fun key => ⟨?_, ?_⟩⟩
  · intro claim_id record hk
    rw [get?_empty] at hk; cases hk
  · intro id row hrow
    rw [Db.tasks, get?_empty] at hrow; cases hrow
  · intro id record hm
    obtain ⟨⟨claim_id, hk⟩, -⟩ := mem_unreleased.mp hm
    rw [get?_empty] at hk; cases hk

theorem Accounted.serve (h : Accounted store.db) (hok : SingleHandover store request) :
    Accounted (store.serve P request).db := by
  cases (serve_effect store request).tasks with
  | kept kept =>
    refine ⟨?_, fun key => (h.occupied key).kept kept⟩
    intro claim_id record hk
    rw [kept.ledger] at hk
    exact h.ledger claim_id record hk
  | planned planned =>
    refine ⟨?_, fun key => (h.occupied key).planned planned⟩
    intro claim_id record hk
    rw [planned.ledger] at hk
    exact h.ledger claim_id record hk
  | claimed claimed =>
    exact ⟨h.ledger.put claimed.ledger rfl, fun key =>
      (h.occupied key).claimed claimed hok (h.occupied _)⟩
  | reported reported =>
    exact ⟨h.ledger.reported reported.ledger, fun key => (h.occupied key).reported reported h.ledger⟩

theorem Accounted.reach (h : (schedulingStore P).Reach SingleHandover store) : Accounted store.db :=
  h.invariant (fun _ => Accounted.initial) fun _ _ => Accounted.serve

/-- While no task is claimed whose execution is unknown and still held, a task
is held by at most one row of the ledger, that row is its current claim, and a
trusted ending leaves nothing that holds it. -/
theorem single_occupancy (h : (schedulingStore P).Reach SingleHandover store) (key : RunKey) (id : String) :
    (unreleased store.db key id).length ≤ 1 ∧
    (∀ record ∈ unreleased store.db key id,
      ∃ row, (store.db.tasks key).get? id = some row ∧ row.record.claim_id = some record.claim_id) ∧
    (∀ payload principal now report task db', readReport payload = .ok report →
      report.outcome ∈ terminalOutcomes →
      reportExecution P store.db key id payload principal true now = .ok (task, db') →
      unreleased db' key id = []) := by
  have ha := Accounted.reach h
  refine ⟨unreleased_length ha.ledger (ha.occupied key), (ha.occupied key).holder id, ?_⟩
  intro payload principal now report task db' hread hout hreport
  obtain ⟨document, claim_id, report', hr, rfl⟩ := reportExecution_ok hreport
  have hsame := hr.read
  rw [hread] at hsame; cases hsame
  exact hr.taskReported.settles (by simpa using hout) ha.ledger (ha.occupied key)

/-- One task handed out once is held by one row. -/
theorem single_occupancy_claimed :
    (unreleased (Sample.after (Sample.ready ++ [Sample.claim "1" "d1.1"])).db Sample.key "d1.1").length ≤ 1 := by
  have h : Sample.system.Reach SingleHandover
      (Sample.after (Sample.ready ++ [Sample.claim "1" "d1.1"])) :=
    .of_run Sample.start_initial (by decide +kernel)
  exact (single_occupancy h Sample.key "d1.1").1

/-- A task is claimed, its execution is reconciled as unknown, and a second
worker claims it: two rows hold it. -/
theorem unknown_claimed_again : ∃ store, Sample.system.Reach System.free store ∧
      (unreleased store.db Sample.key "d1.1").length = 2 :=
  ⟨Sample.after (Sample.ready ++ [Sample.claim "1" "d1.1",
      Sample.report "d1.1" "unknown" Sample.user true, Sample.claim "2" "d1.1"]),
    Sample.after_reach _, by decide +kernel⟩

end Karajan.Scheduling
