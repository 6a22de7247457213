import Karajan.Lib.Pages
import Karajan.Scheduling.Handover

/-!
# Pages of tasks

The tasks of a run, and its ready queue, are read page by page. Following the
cursor from the first page ends without a refusal, and what was read is the
whole list.
-/

namespace Karajan.Scheduling

open List Check
open Pages (Page Follows)

def maximumPage : Nat := 100

def defaultPage : Nat := 50

def pageSize : Option Json → Chk Nat
  | none => .ok defaultPage
  | some limit => positiveCount limit .inputInvalid "queue#/limit" maximumPage

def pageOf (ordered : List Task) (size : Nat) (cursor : Option String) : Chk (Page Task String) := do
  let start ← need (Pages.behind Task.task_id ordered cursor) (plain .cursorInvalid)
  return Pages.window Task.task_id ordered size start

-- Every task

structure TaskPage where
  run_id : String
  page : Page Task String
  (count page_size : Nat)
  truncated : Bool := false

def taskStates : List TaskState :=
  [.queued, .blocked, .claimed, .completed, .failed, .cancelled, .superseded, .unknown]

def inState (state : Option String) (items : List Task) : Chk (List Task) :=
  match state with
  | none => .ok items
  | some state => do
    ensure ((taskStates.map TaskState.text).contains state) (plain .inputInvalid)
    return items.filter fun task => task.state.text = state

def byId (tasks : Dict String Task) : List Task := (sorted tasks.keys).filterMap tasks.get?

section
variable (P : Platform) (db : Db) (key : RunKey)

/-- What is listed: the tasks in a state, by their names. -/
def listedTasks (state : Option String) : Chk (List Task) := do
  owned P db key.project_id
  let _ ← runRow P (db.runs key)
  let tasks ← tasksOf P (db.runs key)
  inState state (byId tasks)

def listTasks (cursor : Option String) (limit : Option Json) (state : Option String) : Chk TaskPage := do
  let size ← pageSize limit
  let items ← listedTasks P db key state
  let page ← pageOf items size cursor
  return { run_id := key.run_id, page, count := items.length, page_size := size }

-- The ready queue

structure Waiting where
  task_id : String
  reason : WaitingReason
  state : TaskState

structure Readiness where
  ready : List Task
  waiting : List Waiting
  join_blocked : List String

structure QueuePage where
  run_id : String
  page : Page Task String
  ready_count : Nat
  waiting : List Waiting
  (waiting_count page_size : Nat)
  truncated : Bool := false
  join_blocked : List String

def unclaimable : List TaskState := [.completed, .failed, .cancelled, .superseded, .claimed]

def readiness : Chk Readiness := do
  owned P db key.project_id
  let tables := db.runs key
  let _ ← runRow P tables
  let tasks ← tasksOf P tables
  let expansions ← expansionsOf P tables
  let ledger := ledgerOf db key
  let blocked := joinBlocked expansions tasks (resolvedVersions ledger)
  let reason := fun task : Task => waitingReason P ledger task tasks (blocked.get? task.task_id)
  let open_tasks := (byId tasks).filter fun task => !unclaimable.contains task.state
  return {
    ready := open_tasks.filter fun task => (reason task).isNone
    waiting := open_tasks.filterMap fun task =>
      (reason task).map fun reason => ⟨task.task_id, reason, task.state⟩
    join_blocked := sorted blocked.keys }

/-- Higher priority first, then by name. -/
def readyBefore (one other : Task) : Prop :=
  other.priority < one.priority ∨ one.priority = other.priority ∧ one.task_id ≤ other.task_id

instance : DecidableRel readyBefore := fun _ _ => inferInstanceAs (Decidable (_ ∨ _ ∧ _))

def readyOrdering (tasks : List Task) : List Task := tasks.insertionSort readyBefore

def queue (cursor : Option String) (limit : Option Json) : Chk QueuePage := do
  let size ← pageSize limit
  let found ← readiness P db key
  let ordered := readyOrdering found.ready
  let page ← pageOf ordered size cursor
  return {
    run_id := key.run_id
    page
    ready_count := ordered.length
    waiting := found.waiting.take 1000
    waiting_count := found.waiting.length
    page_size := size
    join_blocked := found.join_blocked }

end

-- Distinct names

theorem byId_nodup (hnamed : ∀ id task, tasks.get? id = some task → task.task_id = id) :
    ((byId tasks).map Task.task_id).Nodup := by
  have hkeys : (byId tasks).map Task.task_id = sorted tasks.keys := by
    have hall : ∀ id ∈ sorted tasks.keys, id ∈ tasks.keys := fun id hm => mem_sorted.mp hm
    rw [byId]
    generalize sorted tasks.keys = ids at hall
    induction ids with
    | nil => rfl
    | cons id rest ih =>
      obtain ⟨hid, hrest⟩ := List.forall_mem_cons.mp hall
      obtain ⟨task, htask⟩ := Dict.mem_keys.mp hid
      rw [filterMap_cons_some htask, map_cons, ih hrest, hnamed id task htask]
  rw [hkeys, sorted]
  exact (perm_insertionSort _ _).nodup_iff.mpr tasks.nodup

theorem pageSize_pos (h : pageSize limit = .ok size) : 0 < size := by
  cases limit with
  | none => cases h; decide
  | some limit =>
    simp only [pageSize, positiveCount, count] at h
    split at h
    case h_1 n =>
      split at h
      case isTrue hn => cases h; omega
      · cases h
    · cases h

section
variable (hreach : (schedulingStore P).Reach System.free store)
include hreach

theorem read_named {id : String} (h : tasksOf P (store.db.runs key) = .ok tasks) (htask : tasks.get? id = some task) :
    task.task_id = id := by
  obtain ⟨row, hrow, rfl⟩ := found_of_tasksOf ⟨tasks, h, htask⟩
  exact tasks_named hreach hrow

theorem read_nodup (h : tasksOf P (store.db.runs key) = .ok tasks) : ((byId tasks).map Task.task_id).Nodup :=
  byId_nodup fun _ _ => read_named hreach h

theorem listedTasks_nodup (h : listedTasks P store.db key state = .ok items) : (items.map Task.task_id).Nodup := by
  simp only [listedTasks, bind_ok] at h
  obtain ⟨_, -, _, -, tasks, htasks, h⟩ := h
  have hnodup := read_nodup hreach htasks
  cases state with
  | none => cases h; exact hnodup
  | some state =>
    simp only [inState, bind_ok, pure_ok] at h
    obtain ⟨_, -, rfl⟩ := h
    exact hnodup.sublist (List.filter_sublist.map _)

theorem ready_nodup (h : readiness P store.db key = .ok found) :
    ((readyOrdering found.ready).map Task.task_id).Nodup := by
  simp only [readiness, bind_ok, pure_ok] at h
  obtain ⟨_, -, _, -, tasks, htasks, _, -, rfl⟩ := h
  refine ((perm_insertionSort readyBefore _).map Task.task_id).nodup_iff.mpr ?_
  exact (read_nodup hreach htasks).sublist ((List.filter_sublist.trans filter_sublist).map _)

/-- Paging loses nothing: of the tasks in a state, and of the ready queue. -/
theorem pages_complete : (∀ limit state first, listTasks P store.db key none limit state = .ok first →
      ∃ pages items, Follows (fun cursor => TaskPage.page <$> listTasks P store.db key cursor limit state)
        none pages ∧ listedTasks P store.db key state = .ok items ∧
        (pages.map Page.items).flatten = items ∧ (items.map Task.task_id).Nodup) ∧
    ∀ limit first, queue P store.db key none limit = .ok first →
      ∃ pages found, Follows (fun cursor => QueuePage.page <$> queue P store.db key cursor limit)
        none pages ∧ readiness P store.db key = .ok found ∧
        (pages.map Page.items).flatten = readyOrdering found.ready ∧
        ((readyOrdering found.ready).map Task.task_id).Nodup := by
  constructor
  · intro limit state first hfirst
    simp only [listTasks, bind_ok] at hfirst
    obtain ⟨size, hsize, items, hitems, -⟩ := hfirst
    have hnodup := listedTasks_nodup hreach hitems
    have hask : ∀ cursor start, Pages.behind Task.task_id items cursor = some start →
        TaskPage.page <$> listTasks P store.db key cursor limit state =
          .ok (Pages.window Task.task_id items size start) := by
      intro cursor start hstart
      simp [listTasks, hsize, hitems, pageOf, hstart, need, pure, Except.pure, Functor.map, Except.map]
    obtain ⟨pages, hpages, hflat⟩ := Pages.follows hnodup (pageSize_pos hsize) hask
    exact ⟨pages, items, hpages, hitems, hflat, hnodup⟩
  · intro limit first hfirst
    simp only [queue, bind_ok] at hfirst
    obtain ⟨size, hsize, found, hfound, -⟩ := hfirst
    have hnodup := ready_nodup hreach hfound
    have hask : ∀ cursor start, Pages.behind Task.task_id (readyOrdering found.ready) cursor = some start →
        QueuePage.page <$> queue P store.db key cursor limit =
          .ok (Pages.window Task.task_id (readyOrdering found.ready) size start) := by
      intro cursor start hstart
      simp [queue, hsize, hfound, pageOf, hstart, need, pure, Except.pure, Functor.map, Except.map]
    obtain ⟨pages, hpages, hflat⟩ := Pages.follows hnodup (pageSize_pos hsize) hask
    exact ⟨pages, found, hpages, hfound, hflat, hnodup⟩

end

open Sample in
theorem pages_complete_ready : ∃ pages items, Follows (fun cursor => TaskPage.page <$>
      listTasks platform (after ready).db key cursor (some (.int 1)) none) none pages ∧
    listedTasks platform (after ready).db key none = .ok items ∧
    (pages.map Page.items).flatten = items ∧ (items.map Task.task_id).Nodup := by
  have hsome : (listTasks platform (after ready).db key none (some (.int 1))
      none).toOption.isSome = true := by decide +kernel
  cases hfirst : listTasks platform (after ready).db key none (some (.int 1)) none with
  | error e => rw [hfirst] at hsome; cases hsome
  | ok first => exact (pages_complete (after_reach _)).1 (some (.int 1)) none first hfirst

-- The queue and the claims

section
variable {id : String} {task : Task} {tasks : Dict String Task}

theorem WaitingReason.text_injective {one other : WaitingReason} (h : one.text = other.text) : one = other := by
  cases one <;> cases other <;> first | rfl | exact absurd h (by decide)

theorem mem_byId : task ∈ byId tasks ↔ ∃ id, tasks.get? id = some task := by
  rw [byId, mem_filterMap]
  exact exists_congr fun id => and_iff_right_of_imp fun h => mem_sorted.mpr (Dict.mem_keys.mpr ⟨task, h⟩)

/-- A claim of a task that is not claimed is refused for its state, or for what it waits for. -/
theorem requireReady_reads (ledger : List Consumption) (tasks : Dict String Task) (id : String)
    (hexpansions : expansionsOf P tables = .ok expansions) (hstate : task.state ≠ .claimed) :
    if task.state ∈ unclaimable then ∃ e, requireReady P tables ledger tasks id task = .error e ∧
        e.fields = [("task_id", .str id), ("state", .str task.state.text)]
    else match waitingReason P ledger task tasks
        ((joinBlocked expansions tasks (resolvedVersions ledger)).get? id) with
      | none => requireReady P tables ledger tasks id task = .ok ()
      | some reason => ∃ e, requireReady P tables ledger tasks id task = .error e ∧
        e.fields = [("task_id", .str id), ("waiting_reason", .str reason.text)] := by
  have hopen : task.state ∈ unclaimable ↔
      List.contains [.completed, .failed, .cancelled, .superseded] task.state = true := by
    simp [unclaimable, hstate]
  simp only [requireReady, hexpansions, hopen, ok_bind]
  cases List.contains [.completed, .failed, .cancelled, .superseded] task.state with
  | true => exact ⟨_, rfl, rfl⟩
  | false =>
    cases (joinBlocked expansions tasks (resolvedVersions ledger)).get? id with
    | some reason => exact ⟨_, rfl, rfl⟩
    | none =>
      simp only [Bool.false_eq_true, if_false]
      cases hreason : waitingReason P ledger task tasks none with
      | some reason => exact ⟨_, rfl, rfl⟩
      | none => rfl

end

end Karajan.Scheduling
