import Karajan.Scheduling.Occupancy

/-!
# Retired and settled tasks

A superseded task is meant to stay superseded, and a settled outcome to stay
settled. Decisions and claims keep both. A report rewrites the state from what
it says, whatever the task's state was, so both hold as long as the reports of
such a task say nothing that rewrites it.
-/

namespace Karajan.Scheduling

open List Check
variable {P : Platform} {store later : Store} {key key' : RunKey} {id : String} {row : Row Task}

/-- A report that passes its guards meets `ok`, given the task it is of. -/
def reportMeets (ok : RunKey → String → Task → Bool → Reported → Bool) (store : Store) : Request → Bool
  | .reportExecution key id payload principal trusted _ =>
    match (store.db.tasks key).get? id, readReport payload with
    | some row, .ok report =>
      row.record.claim_id.isNone ||
        !(trusted || row.record.claimed_by = some principal.credential_id) ||
        ok key id row.record trusted report.outcome
    | _, _ => true
  | _ => true

theorem reportMeets_ok (h : reportMeets ok store (.reportExecution key id payload principal trusted now) = true)
    (hrow : (store.db.tasks key).get? id = some row) (hread : readReport payload = .ok report)
    (hclaimed : row.record.claim_id = some claim_id)
    (hholds : trusted = true ∨ row.record.claimed_by = some principal.credential_id) :
    ok key id row.record trusted report.outcome = true := by
  have hguard : (trusted || row.record.claimed_by = some principal.credential_id) = true := by
    simpa using hholds
  simpa [reportMeets, hrow, hread, hclaimed, hguard] using h

/-- The reports that say nothing new of a task's state: a trusted start, an
untrusted one that is no ending, and an untrusted ending of a settled task. -/
def leavesState (document : Task) (trusted : Bool) (outcome : Reported) : Bool :=
  if trusted then outcome = .started else !terminalOutcomes.contains outcome || reconciled document

theorem reportedState_untrusted : reportedState document false outcome =
    if leavesState document false outcome then document.state else .claimed := by
  simp only [reportedState, leavesState, Bool.false_eq_true, if_false]
  cases terminalOutcomes.contains outcome <;> cases reconciled document <;> rfl

theorem reportedState_leaves (h : leavesState document trusted outcome = true) :
    reportedState document trusted outcome = document.state := by
  cases trusted with
  | true =>
    have hs : outcome = .started := by simpa [leavesState] using h
    rw [hs]; rfl
  | false => rw [reportedState_untrusted, if_pos h]

-- Superseded tasks

def SupersededLeft (store : Store) (request : Request) : Prop := reportMeets (fun _ _ document trusted outcome =>
    document.state ≠ .superseded || leavesState document trusted outcome) store request = true

instance : Decidable (SupersededLeft store request) := inferInstanceAs (Decidable (_ = true))

structure StaysSuperseded (old new : Task) : Prop where
  state : new.state = .superseded
  superseded_by : new.superseded_by = old.superseded_by

variable {request : Request}

theorem serve_superseded (hok : SupersededLeft store request) (hrow : (store.db.tasks key).get? id = some row)
    (hs : row.record.state = .superseded) : ∃ row', ((store.serve P request).db.tasks key).get? id = some row' ∧
      StaysSuperseded row.record row'.record := by
  obtain ⟨row', hrow', hmove⟩ := serve_moves P request hrow
  refine ⟨row', hrow', ?_⟩
  revert hmove
  generalize row'.record = new
  intro hmove
  cases hmove with
  | same => exact ⟨hs, rfl⟩
  | planned planned =>
    rw [planned.retired (Task.live_superseded hs)]
    exact ⟨hs, rfl⟩
  | claimed _ ready => exact absurd hs ready.2.2.2
  | reported read claimed holds =>
    have hleaves := reportMeets_ok hok hrow read claimed holds
    simp only [hs, ne_eq, not_true_eq_false, decide_false, Bool.false_or] at hleaves
    exact ⟨(reportedState_leaves hleaves).trans hs, rfl⟩

/-- While no report of a superseded task gives it another state, a task that
was superseded stays so, by the task that superseded it, and is never live. -/
theorem superseded_stays (h : (schedulingStore P).Path SupersededLeft store later) {row : Row Task}
    (hrow : (store.db.tasks key).get? id = some row) (hs : row.record.state = .superseded) :
    ∃ row', (later.db.tasks key).get? id = some row' ∧ row'.record.state = .superseded ∧
      row'.record.live = false ∧ row'.record.superseded_by = row.record.superseded_by := by
  have hkeeps : ∃ row', (later.db.tasks key).get? id = some row' ∧
      StaysSuperseded row.record row'.record := by
    refine h.keeps (I := fun store => ∃ row', (store.db.tasks key).get? id = some row' ∧
      StaysSuperseded row.record row'.record) ?_ ⟨row, hrow, hs, rfl⟩
    rintro mid request ⟨row', hrow', hstays⟩ hok
    obtain ⟨row'', hrow'', hstays'⟩ := serve_superseded (P := P) hok hrow' hstays.state
    exact ⟨row'', hrow'', hstays'.state, hstays'.superseded_by.trans hstays.superseded_by⟩
  obtain ⟨row', hrow', hstays⟩ := hkeeps
  exact ⟨row', hrow', hstays.state, Task.live_superseded hstays.state, hstays.superseded_by⟩

def Sample.superseded : List Request :=
  Sample.ready ++ [Sample.claim "1" "d1.1", .createExpansion Sample.key "g" (Sample.expansion "f") 0,
    Sample.submit "2" 1 (Sample.expand "f" [Sample.successor "1" "d1.1"] ["d2.1"])]

theorem sample_superseded : Sample.stateOf (Sample.after Sample.superseded) "d1.1" = some .superseded := by
  decide +kernel

/-- A trusted report that only says the execution started leaves it superseded. -/
theorem superseded_stays_started : Sample.stateOf (Sample.system.run (Sample.after Sample.superseded)
      [Sample.report "d1.1" "started" Sample.user true]) "d1.1" = some .superseded := by
  obtain ⟨row, hrow, hstate⟩ := Option.map_eq_some_iff.mp sample_superseded
  have hpath : Sample.system.Path SupersededLeft (Sample.after Sample.superseded)
      (Sample.system.run _ [Sample.report "d1.1" "started" Sample.user true]) :=
    .of_run (by decide +kernel)
  obtain ⟨row', hrow', hstate', -⟩ := superseded_stays hpath hrow hstate
  exact Option.map_eq_some_iff.mpr ⟨row', hrow', hstate'⟩

/-- A trusted ending of its execution makes it live again. -/
theorem superseded_revived : ∃ store later, Sample.system.Reach System.free store ∧
      Sample.system.Path System.free store later ∧
      Sample.stateOf store "d1.1" = some .superseded ∧
      Sample.stateOf later "d1.1" = some .completed :=
  ⟨Sample.after Sample.superseded,
    Sample.system.run _ [Sample.report "d1.1" "completed" Sample.user true],
    Sample.after_reach _, .of_free_run, sample_superseded, by decide +kernel⟩

-- Settled tasks

def settledState : Reported → Option TaskState
  | .completed => some .completed
  | .failed => some .failed
  | .cancelled => some .cancelled
  | .started | .unknown => none

/-- A report that leaves the state, or says the state the task is in. -/
def repeatsState (document : Task) (trusted : Bool) (outcome : Reported) : Bool :=
  leavesState document trusted outcome || (trusted && settledState outcome = some document.state)

theorem settledState_reported (h : settledState outcome = some state) :
    reportedState document true outcome = state := by
  cases outcome <;> cases h <;> rfl

theorem reportedState_repeats (h : repeatsState document trusted outcome = true) :
    reportedState document trusted outcome = document.state := by
  simp only [repeatsState, Bool.or_eq_true, Bool.and_eq_true, decide_eq_true_eq] at h
  rcases h with hl | ⟨rfl, hs⟩
  · exact reportedState_leaves hl
  · exact settledState_reported hs

/-- Only reports and whatever does not concern decisions, and of one settled
task only reports that repeat its state. -/
def SettledRepeated (key : RunKey) (id : String) (store : Store) (request : Request) : Prop :=
  (match request with
    | .submitDecision .. => false
    | _ => reportMeets (fun key' id' document trusted outcome =>
        !(key' = key && id' = id) || repeatsState document trusted outcome) store request) = true

instance : Decidable (SettledRepeated key id store request) := inferInstanceAs (Decidable (_ = true))

theorem settledState_ended (h : settledState settled = some state) :
    state ∈ [TaskState.completed, .failed, .cancelled] := by
  cases settled <;> cases h <;> simp

theorem serve_settled (hok : SettledRepeated key id store request)
    (hrow : (store.db.tasks key).get? id = some row) (hs : settledState settled = some row.record.state) :
    ∃ row', ((store.serve P request).db.tasks key).get? id = some row' ∧
      row'.record.state = row.record.state := by
  obtain ⟨row', hrow', hmove⟩ := serve_moves P request hrow
  refine ⟨row', hrow', ?_⟩
  revert hmove
  generalize row'.record = new
  intro hmove
  cases hmove with
  | same => rfl
  | planned => cases hok
  | claimed _ ready =>
    have hended := settledState_ended hs
    simp only [mem_cons, not_mem_nil, or_false] at hended
    tauto
  | reported read claimed holds =>
    have hrepeats := reportMeets_ok hok hrow read claimed holds
    simp only [decide_true, Bool.and_self, Bool.not_true, Bool.false_or] at hrepeats
    exact reportedState_repeats hrepeats

theorem serve_unheld (hrow : (store.db.tasks key).get? id = some row)
    (hs : settledState settled = some row.record.state)
    (hm : record ∈ unreleased (store.serve P request).db key id) : record ∈ unreleased store.db key id := by
  cases (serve_effect store request).tasks with
  | kept kept => rwa [unreleased_congr kept.ledger] at hm
  | planned planned => rwa [unreleased_congr planned.ledger] at hm
  | reported reported => exact (mem_unreleased_reported reported.ledger hm).1
  | claimed claimed =>
    rcases mem_unreleased_put claimed.ledger hm with rfl | hold
    · obtain ⟨-, hp, hr, ht, -⟩ := mem_unreleased.mp hm
      cases RunKey.ext hp hr
      cases ht
      obtain ⟨row', hrow', rfl⟩ := claimed.rewritten.found
      cases hrow.symm.trans hrow'
      have hready := claimed.ready
      have hended := settledState_ended hs
      simp only [mem_cons, not_mem_nil, or_false] at hended
      tauto
    · exact hold

theorem claim_settled
    (hrow : (db.tasks key).get? id = some row) (hs : settledState settled = some row.record.state)
    (hnames : namedTask payload = some id)
    (h : claim P db key payload principal command_key clock = .ok (result, db')) :
    result.2 = false ∧ db' = db := by
  rcases claim_ok h with hsame | ⟨claim_key, task_id, document, grant, admission, digest, hc, -⟩
  · exact hsame
  · have hid : task_id = id := by
      have := hc.names.named
      rw [hnames] at this; cases this; rfl
    subst hid
    obtain ⟨tasks, htasks, hget, -⟩ := hc.unchanged
    obtain ⟨row', hrow', rfl⟩ := found_of_tasksOf ⟨tasks, htasks, hget⟩
    rw [hrow] at hrow'; cases hrow'
    have hready := hc.ready
    have hended := settledState_ended hs
    simp only [mem_cons, not_mem_nil, or_false] at hended
    tauto

/-- While every report of a task that a trusted ending settled repeats its
state, and no decision is submitted, the task keeps that state: it does not
occupy, nothing new holds it, and no claim hands it out. -/
theorem settled_stays {report : ExecutionReport} {task : Task}
    (hread : readReport payload = .ok report) (hout : settledState report.outcome = some state)
    (hreport : reportExecution P store.db key id payload principal true now = .ok (task, db'))
    (h : (schedulingStore P).Path (SettledRepeated key id) { store with db := db' } later) :
    (∃ row, (later.db.tasks key).get? id = some row ∧ row.record.state = state) ∧
    state ∉ occupyingStates ∧
    (∀ record ∈ unreleased later.db key id, record ∈ unreleased db' key id) ∧
    ∀ payload principal command_key clock result db'', namedTask payload = some id →
      claim P later.db key payload principal command_key clock = .ok (result, db'') →
      result.2 = false ∧ db'' = later.db := by
  obtain ⟨document, claim_id, report', hr, rfl⟩ := reportExecution_ok hreport
  have hsame := hr.read
  rw [hread] at hsame; cases hsame
  have hwritten : ((reportedDb P store.db key id document claim_id report principal true now).tasks
      key).get? id = _ := hr.taskReported.rewritten.written
  have hkeeps : (∃ row, (later.db.tasks key).get? id = some row ∧ row.record.state = state) ∧
      ∀ record ∈ unreleased later.db key id, record ∈ unreleased (reportedDb P store.db key id
        document claim_id report principal true now) key id := by
    refine h.keeps (I := fun store => (∃ row, (store.db.tasks key).get? id = some row ∧
      row.record.state = state) ∧ ∀ record ∈ unreleased store.db key id,
        record ∈ unreleased (reportedDb P _ key id document claim_id report principal true now) key id)
      ?_ ⟨⟨_, hwritten, settledState_reported hout⟩, fun _ hm => hm⟩
    rintro mid request ⟨⟨row, hrow, rfl⟩, hheld⟩ hok
    exact ⟨serve_settled hok hrow hout, fun record hm => hheld record (serve_unheld hrow hout hm)⟩
  obtain ⟨⟨row, hrow, rfl⟩, hheld⟩ := hkeeps
  refine ⟨⟨row, hrow, rfl⟩, ?_, hheld, ?_⟩
  · have hended := settledState_ended hout
    simp only [mem_cons, not_mem_nil, or_false] at hended
    rcases hended with he | he | he <;> rw [he] <;> decide
  · intro payload principal command_key clock result db'' hnames hclaim
    exact claim_settled hrow hout hnames hclaim

def Sample.claimed : List Request := Sample.ready ++ [Sample.claim "1" "d1.1"]

/-- A settled task is reported on by its worker, and stays settled. -/
theorem settled_stays_completed : Sample.stateOf (Sample.system.run (Sample.after Sample.claimed)
      [Sample.report "d1.1" "completed" Sample.user true,
        Sample.report "d1.1" "failed" Sample.worker false]) "d1.1" = some .completed := by
  obtain ⟨report, hread, hout⟩ : ∃ report, readReport (Sample.reportBody "completed") = .ok report ∧
      report.outcome = .completed := ok_of_map (by decide +kernel)
  obtain ⟨⟨task, db'⟩, hreport⟩ := ok_of_isOk (x := reportExecution Sample.platform
    (Sample.after Sample.claimed).db Sample.key "d1.1" (Sample.reportBody "completed") Sample.user true
    0) (by decide +kernel)
  have hstep : Sample.system.step (Sample.after Sample.claimed)
      (Sample.report "d1.1" "completed" Sample.user true) =
      { Sample.after Sample.claimed with db := db' } := by
    simp only [schedulingStore, Store.serve, Sample.report, hreport, committed]
  have hpath : Sample.system.Path (SettledRepeated Sample.key "d1.1")
      { Sample.after Sample.claimed with db := db' }
      (Sample.system.run (Sample.system.step (Sample.after Sample.claimed)
        (Sample.report "d1.1" "completed" Sample.user true))
        [Sample.report "d1.1" "failed" Sample.worker false]) := by
    rw [← hstep]
    exact .of_run (by decide +kernel)
  obtain ⟨⟨row, hrow, hstate⟩, -⟩ := settled_stays hread (by rw [hout]; rfl) hreport hpath
  rw [System.run_cons]
  exact Option.map_eq_some_iff.mpr ⟨row, hrow, hstate⟩

/-- A settled task is reported as started, which settles nothing; its worker's
late report then makes it claimed again. -/
theorem settled_reopened : ∃ store later, Sample.system.Reach System.free store ∧
      Sample.stateOf store "d1.1" = some .completed ∧
      later = Sample.system.run store [Sample.report "d1.1" "started" Sample.user true,
        Sample.report "d1.1" "completed" Sample.worker false] ∧
      Sample.stateOf later "d1.1" = some .claimed :=
  ⟨Sample.after (Sample.claimed ++ [Sample.report "d1.1" "completed" Sample.user true]), _,
    Sample.after_reach _, by decide +kernel, rfl, by decide +kernel⟩

end Karajan.Scheduling

-- The live dependency graph

namespace Karajan.Scheduling

open Check
variable {P : Platform} {store : Store} {key key' : RunKey} {id : String}

def LiveEdge (db : Db) (key : RunKey) (dependency id : String) : Prop :=
  ∃ row row', (db.tasks key).get? id = some row ∧ row.record.live = true ∧
    dependency ∈ row.record.depends_on ∧
    (db.tasks key).get? dependency = some row' ∧ row'.record.live = true

def LiveAcyclic (db : Db) (key : RunKey) : Prop := ∀ id, ¬ Relation.TransGen (LiveEdge db key) id id

theorem LiveAcyclic.mono (h : LiveAcyclic db key)
    (hsub : ∀ dependency id, LiveEdge db' key dependency id → LiveEdge db key dependency id) :
    LiveAcyclic db' key :=
  fun id hcycle => h id (Relation.TransGen.mono hsub _ _ hcycle)

theorem LiveAcyclic.of_rows (h : LiveAcyclic db key)
    (hback : ∀ id row', (db'.tasks key).get? id = some row' → row'.record.live = true →
      ∃ row, (db.tasks key).get? id = some row ∧ row.record.live = true ∧
        row'.record.depends_on = row.record.depends_on) : LiveAcyclic db' key := by
  refine h.mono ?_
  rintro dependency id ⟨row, row', hrow, hlive, hmem, hrow', hlive'⟩
  obtain ⟨old, hold, holdlive, hdeps⟩ := hback id row hrow hlive
  obtain ⟨old', hold', holdlive', -⟩ := hback dependency row' hrow' hlive'
  exact ⟨old, old', hold, holdlive, hdeps ▸ hmem, hold', holdlive'⟩

-- Decisions

/-- The dependency relation, restricted to the tasks in the map. -/
def DependsWithin (tasks : Dict String Task) (dependency id : String) : Prop :=
  ∃ task, tasks.get? id = some task ∧ dependency ∈ task.depends_on ∧ dependency ∈ tasks.keys

theorem mem_neighbours : dependency ∈ neighbours tasks id ↔ DependsWithin tasks dependency id := by
  unfold neighbours DependsWithin
  split
  case h_1 task htask => simp [htask, Dict.contains_iff]
  case h_2 hnone => simp [hnone]

theorem dependencyCycle_decides (tasks : Dict String Task) :
    Dfs.Decides (DependsWithin tasks) (dependencyCycle tasks) := by
  have hbelow : Dfs.Below (neighbours tasks) = DependsWithin tasks := by
    funext dependency id
    exact propext mem_neighbours
  have hfound : dependencyCycle tasks = (Dfs.search (neighbours tasks)
      (Dfs.rounds (neighbours tasks) (sorted tasks.keys)) (sorted tasks.keys) .empty).found := by
    rw [dependencyCycle]
    cases Dfs.search (neighbours tasks) _ _ .empty <;> rfl
  rw [hfound, Dfs.search_eq_explore, ← hbelow]
  refine Dfs.explore_decides (fun node _ target htarget => ?_) fun a ha => ?_
  · obtain ⟨_, -, -, hkey⟩ := mem_neighbours.mp htarget
    simpa using hkey
  · have hnone : tasks.get? a = none := Dict.get?_eq_none.mpr (by simpa using ha)
    rw [neighbours, hnone]

theorem TasksPlanned.liveAcyclic (h : TasksPlanned db db' key) : LiveAcyclic db' key := by
  obtain ⟨effective, hnone, heffective⟩ := h.acyclic
  refine fun id hcycle => (dependencyCycle_decides effective).none_iff.mp hnone id ?_
  refine Relation.TransGen.mono ?_ _ _ hcycle
  rintro dependency id ⟨row, row', hrow, hlive, hmem, hrow', hlive'⟩
  exact ⟨_, heffective id row hrow hlive, hmem, Dict.mem_keys.mpr ⟨_, heffective dependency row' hrow' hlive'⟩⟩

theorem LiveAcyclic.planned (h : LiveAcyclic db key') (hp : TasksPlanned db db' key) : LiveAcyclic db' key' := by
  by_cases hkey : key' = key
  · subst hkey; exact hp.liveAcyclic
  · refine h.of_rows fun id row' hrow' hlive => ⟨row', ?_, hlive, rfl⟩
    rwa [hp.elsewhere key' hkey] at hrow'

-- Claims and reports

def RetiredLeft (store : Store) (request : Request) : Prop := reportMeets (fun _ _ document trusted outcome =>
    document.live || leavesState document trusted outcome || (trusted && outcome = .cancelled))
    store request = true

instance : Decidable (RetiredLeft store request) := inferInstanceAs (Decidable (_ = true))

theorem TaskRewritten.back
    (h : TaskRewritten db db' key task_id old new) (hrow' : (db'.tasks key').get? id = some row') :
    (db.tasks key').get? id = some row' ∨
      (key' = key ∧ id = task_id ∧ row'.record = new ∧
        ∃ row, (db.tasks key).get? task_id = some row ∧ row.record = old) := by
  by_cases hkey : key' = key
  · subst hkey
    by_cases hid : id = task_id
    · subst hid
      rw [h.written] at hrow'; cases hrow'
      exact .inr ⟨rfl, rfl, rfl, h.found⟩
    · rw [h.others id hid] at hrow'; exact .inl hrow'
  · rw [h.elsewhere key' hkey] at hrow'; exact .inl hrow'

theorem LiveAcyclic.rewritten (h : LiveAcyclic db key')
    (hr : TaskRewritten db db' key id old new) (hlive : new.live = true → old.live = true)
    (hdeps : new.depends_on = old.depends_on) : LiveAcyclic db' key' := by
  refine h.of_rows fun id' row' hrow' hnew => ?_
  rcases hr.back hrow' with hsame | ⟨rfl, rfl, rfl, row, hrow, rfl⟩
  · exact ⟨row', hsame, hnew, rfl⟩
  · exact ⟨row, hrow, hlive hnew, hdeps⟩

theorem reported_live (hok : (document.live || leavesState document trusted report.outcome ||
      (trusted && report.outcome = .cancelled)) = true)
    (hlive : (reportedTask P document report principal trusted now).live = true) : document.live = true := by
  simp only [Bool.or_eq_true, Bool.and_eq_true, decide_eq_true_eq] at hok
  rcases hok with (hl | hleaves) | ⟨rfl, hcancelled⟩
  · exact hl
  · rw [Task.live_iff, reportedTask_state, reportedState_leaves hleaves] at hlive
    exact Task.live_iff.mpr hlive
  · rw [Task.live_iff, reportedTask_state, hcancelled] at hlive
    exact absurd rfl hlive.2

theorem serve_acyclic (h : LiveAcyclic store.db key)
    (hok : RetiredLeft store request) : LiveAcyclic (store.serve P request).db key := by
  cases (serve_effect store request).tasks with
  | kept kept =>
    refine h.of_rows fun id row' hrow' hlive => ⟨row', ?_, hlive, rfl⟩
    rwa [kept.tasks] at hrow'
  | planned planned => exact h.planned planned
  | claimed claimed =>
    refine h.rewritten claimed.rewritten (fun _ => ?_) rfl
    exact Task.live_iff.mpr ⟨claimed.ready.2.2.2, claimed.ready.2.2.1⟩
  | reported reported =>
    refine h.rewritten reported.rewritten (fun hlive => ?_) rfl
    obtain ⟨row, hrow, rfl⟩ := reported.rewritten.found
    exact reported_live (reportMeets_ok hok hrow reported.read reported.claimed reported.holds) hlive

/-- While no report makes a retired task live, the live tasks of a run never
depend on each other in a cycle. -/
theorem live_graph_acyclic (h : (schedulingStore P).Reach RetiredLeft store) (key : RunKey)
    (id : String) : ¬ Relation.TransGen (LiveEdge store.db key) id id := by
  have hacyclic : LiveAcyclic store.db key := by
    refine h.invariant (I := fun store => LiveAcyclic store.db key) ?_ fun _ _ => serve_acyclic
    rintro store ⟨projects, rfl⟩ id hcycle
    obtain ⟨dependency, -, row, -, hrow, -⟩ := Relation.TransGen.tail'_iff.mp hcycle
    rw [Db.tasks, Dict.get?_empty] at hrow; cases hrow
  exact hacyclic id

/-- The second task depends on the first. The first completes, the second is
claimed and superseded, and the first is made to depend on the second. -/
def Sample.crossed : List Request :=
  Sample.opened ++ [Sample.submit "1" 0 (Sample.expand "e"
       [Sample.task "1", Sample.task "2" [("depends_on", Json.ofTexts ["d1.1"])]] ["d1.1", "d1.2"]),
     Sample.claim "1" "d1.1", Sample.report "d1.1" "completed" Sample.user true,
     Sample.claim "2" "d1.2", .createExpansion Sample.key "g" (Sample.expansion "f") 0,
     Sample.submit "2" 1 (Sample.expand "f" [Sample.successor "1" "d1.2"] ["d2.1"] ++
       [.object [("action", .str "set_dependencies"), ("task_id", .str "d1.1"),
         ("depends_on", Json.ofTexts ["d1.2"])]])]

/-- As long as the superseded one is left alone, there is no cycle. -/
theorem live_graph_acyclic_crossed :
    ¬ Relation.TransGen (LiveEdge (Sample.after Sample.crossed).db Sample.key) "d1.1" "d1.1" := by
  have h : Sample.system.Reach RetiredLeft (Sample.after Sample.crossed) :=
    .of_run Sample.start_initial (by decide +kernel)
  exact live_graph_acyclic h Sample.key "d1.1"

def Sample.edges (store : Store) (task_id : String) : Option (Bool × List String) :=
  ((store.db.tasks Sample.key).get? task_id).map fun row => (row.record.live, row.record.depends_on)

/-- A trusted report that its execution is unknown makes it live, on a cycle. -/
theorem live_cycle_revived : ∃ store, Sample.system.Reach System.free store ∧
      Relation.TransGen (LiveEdge store.db Sample.key) "d1.1" "d1.1" := by
  let store := Sample.after (Sample.crossed ++ [Sample.report "d1.2" "unknown" Sample.user true])
  have h : Sample.edges store "d1.1" = some (true, ["d1.2"]) ∧
      Sample.edges store "d1.2" = some (true, ["d1.1"]) := by decide +kernel
  obtain ⟨row, hrow, hedges⟩ := Option.map_eq_some_iff.mp h.1
  obtain ⟨row', hrow', hedges'⟩ := Option.map_eq_some_iff.mp h.2
  simp only [Prod.mk.injEq] at hedges hedges'
  have hfirst : LiveEdge store.db Sample.key "d1.2" "d1.1" :=
    ⟨row, row', hrow, hedges.1, by simp [hedges.2], hrow', hedges'.1⟩
  have hsecond : LiveEdge store.db Sample.key "d1.1" "d1.2" :=
    ⟨row', row, hrow', hedges'.1, by simp [hedges'.2], hrow, hedges.1⟩
  exact ⟨store, Sample.after_reach _, .tail (.single hsecond) hfirst⟩

end Karajan.Scheduling
