import Karajan.Conversations.Steps

/-!
# The stream of a conversation

Over every history of commands, a conversation names its last event, and a client
that keeps asking for what lies beyond what it has is sent every event once and
in order. What is refused changes nothing, and what was rejected with a record is
rejected so ever after.
-/

namespace Karajan.Conversations

open Feeds Check

inductive Action
  | store (call : StoreCall) (w : World)
  | bindRun (project_id run_id : String) (conversation_id : Option String) (draft_id : String) (at_time : Rat)
  | run (call : Planner.Call) (draft_id : String)
  | register (project_id : String)

variable (lib : Library)

def step (db : Database) : Action → Database
  | .store call w => (performStore lib db call w).2
  | .bindRun project_id run_id conversation_id draft_id at_time =>
    match bindRun lib db project_id run_id conversation_id draft_id at_time with
    | .ok (tables, _) => { db with tables }
    | .error _ => db
  | .run call draft_id => (performRun lib db call draft_id).2
  | .register project_id => { db with projects := db.projects ++ [project_id] }

def conversations : System Database Action where
  initial db := db = ⟨⟨.empty, .empty, []⟩, .empty, .empty, []⟩
  step := step lib

open Event (sequence)

/-- A client of a conversation: it starts at zero or at a watermark it was told, and asks for what
lies beyond the last event it was sent, or the watermark where it was sent none. -/
inductive Polled (conversation_id : String) (start : Nat) : Database → Nat → List Event → Prop
  | zero {db} (hr : (conversations lib).Reach System.free db) (hzero : start = 0) :
      Polled conversation_id start db start []
  | told {db after_seq batch} (hr : (conversations lib).Reach System.free db)
      (hread : eventsSnapshot db.tables conversation_id after_seq = .ok (batch, start)) :
      Polled conversation_id start db start []
  | waited {db cursor received action} (h : Polled conversation_id start db cursor received) :
      Polled conversation_id start (step lib db action) cursor received
  | polled {db cursor received events watermark} (h : Polled conversation_id start db cursor received)
      (hread : eventsSnapshot db.tables conversation_id cursor = .ok (.events events, watermark)) :
      Polled conversation_id start db (next sequence watermark events) (received ++ events)

variable {lib} {conversation_id id : String} {received : List Event}

-- Every state

structure Kept (db : Database) : Prop where
  tables : Sound db.tables
  bound : ∀ run_id run, db.planner.runs.get? run_id = some run → db.tables.Binds run_id run.project_id

structure Grows (db db' : Database) : Prop where
  tables : Later db.tables db'.tables
  commands : ∀ key row, db.commands.get? key = some row → db'.commands.get? key = some row
  planned : ∀ key row, db.planner.commands.get? key = some row → db'.planner.commands.get? key = some row
  projects : ∀ id ∈ db.projects, id ∈ db'.projects

theorem Grows.refl (db : Database) : Grows db db := ⟨.refl _, fun _ _ h => h, fun _ _ h => h, fun _ h => h⟩

theorem Grows.trans (h : Grows db db') (h' : Grows db' db₂) : Grows db db₂ :=
  ⟨h.tables.trans h'.tables, fun k r hr => h'.commands k r (h.commands k r hr),
    fun k r hr => h'.planned k r (h.planned k r hr), fun id hid => h'.projects id (h.projects id hid)⟩

theorem Saves.later (h : Saves t id revision request value t') : Later t t' := by
  have hbase : Later t (t.redraft id value) := ⟨List.prefix_refl _, fun _ c hc => ⟨c, hc, rfl⟩, fun _ _ hb => hb⟩
  exact hbase.trans h.edits.later

theorem Applied.sound (h : Applied t command result t') (hs : Sound t) : Sound t' := by
  cases h with
  | edits edits => exact edits.sound hs
  | saved _ saves => exact saves.edits.sound hs.redraft

theorem Applied.later (h : Applied t command result t') : Later t t' := by
  cases h with
  | edits edits => exact edits.later
  | saved _ saves => exact saves.later

theorem StoreStep.grows (h : StoreStep db call answer db') : Grows db db' := by
  cases h with
  | refused | replayed => exact .refl db
  | rejected new => exact ⟨.refl _, fun _ _ => Dict.get?_put_new new, fun _ _ h => h, fun _ h => h⟩
  | accepted new applied => exact ⟨applied.later, fun _ _ => Dict.get?_put_new new, fun _ _ h => h, fun _ h => h⟩

theorem StoreStep.keeps (h : StoreStep db call answer db') (hk : Kept db) : Kept db' := by
  refine ⟨?_, fun run_id run hrun => ?_⟩
  · cases h with
    | refused | replayed | rejected => exact hk.tables
    | accepted new applied => exact applied.sound hk.tables
  · have hruns : db'.planner.runs = db.planner.runs := by cases h <;> rfl
    rw [hruns] at hrun
    exact h.grows.tables.binds (hk.bound run_id run hrun)

theorem SameRuns.back (h : SameRuns runs runs') (hrun : runs'.get? run_id = some run) :
    ∃ run₀, runs.get? run_id = some run₀ ∧ run₀.project_id = run.project_id := by
  have hsame := h run_id
  rw [hrun, Option.map_some] at hsame
  exact Option.map_eq_some_iff.mp hsame.symm

theorem RunStep.later (h : RunStep db answer db') : Later db.tables db'.tables := by
  cases h with
  | kept runs edits | created runs absent edits => exact edits.later

theorem RunStep.keeps (h : RunStep db answer db') (hk : Kept db) : Kept db' := by
  cases h with
  | kept runs edits refused =>
    refine ⟨edits.sound hk.tables, fun run_id run hrun => ?_⟩
    obtain ⟨run₀, hrun₀, hproject⟩ := runs.back hrun
    rw [← hproject]
    exact edits.later.binds (hk.bound run_id run₀ hrun₀)
  | created runs absent edits binds =>
    refine ⟨edits.sound hk.tables, fun run_id run' hrun => ?_⟩
    simp only [runs, Dict.get?_put] at hrun
    split at hrun
    case isTrue heq =>
      obtain rfl := heq
      cases hrun
      exact binds
    · exact edits.later.binds (hk.bound run_id run' hrun)

theorem performRun_grows (hk : Kept db) : Grows db (performRun lib db call draft_id).2 := by
  refine ⟨(performRun_step lib hk.tables call draft_id).later, ?_, ?_, ?_⟩
  · simp only [performRun]
    split <;> exact fun _ _ h => h
  · have hplanner := (@Planner.perform_step lib.toPlannerLibrary db.planner { call with
      action := withBinding call.action (created lib db call.action draft_id call.now) }).continues.commands
    simp only [performRun]
    split <;> exact hplanner
  · simp only [performRun]
    split <;> exact fun _ h => h

variable (lib) in
theorem step_kept (hk : Kept db) (action : Action) : Kept (step lib db action) := by
  cases action with
  | store call w => exact (performStore_step lib hk.tables call w).keeps hk
  | bindRun =>
    simp only [step]
    split
    case h_1 tables _ hbind =>
      have hedits := bindRun_ok hbind
      exact ⟨hedits.sound hk.tables, fun run_id run hrun => hedits.later.binds (hk.bound run_id run hrun)⟩
    · exact hk
  | run call draft_id => exact (performRun_step lib hk.tables call draft_id).keeps hk
  | register => exact ⟨hk.tables, hk.bound⟩

variable (lib) in
theorem step_grows (hk : Kept db) (action : Action) : Grows db (step lib db action) := by
  cases action with
  | store call w => exact (performStore_step lib hk.tables call w).grows
  | bindRun =>
    simp only [step]
    split
    case h_1 tables _ hbind =>
      exact ⟨(bindRun_ok hbind).later, fun _ _ h => h, fun _ _ h => h, fun _ h => h⟩
    · exact .refl db
  | run call draft_id => exact performRun_grows hk
  | register => exact ⟨.refl _, fun _ _ h => h, fun _ _ h => h, fun _ h => List.mem_append_left _ h⟩

theorem kept_initial : Kept ⟨⟨.empty, .empty, []⟩, .empty, .empty, []⟩ := by
  refine ⟨.empty, fun run_id run hrun => ?_⟩
  simp at hrun

theorem kept (h : (conversations lib).Reach System.free db) : Kept db := by
  refine h.invariant (fun db hdb => ?_) fun _ action hk _ => step_kept lib hk action
  subst hdb
  exact kept_initial

theorem path_grows (hk : Kept db) (hp : (conversations lib).Path System.free db db') :
    Kept db' ∧ Grows db db' := by
  induction hp with
  | refl => exact ⟨hk, .refl db⟩
  | @step _ action hp _ ih => exact ⟨step_kept lib ih.1 action, ih.2.trans (step_grows lib ih.1 action)⟩

-- Clients

/-- A cursor that is known: zero, or the sequence of an event of the conversation. -/
def Known (t : Tables) (id : String) (cursor : Nat) : Prop := cursor = 0 ∨ ∃ e ∈ t.own id, e.sequence = cursor

theorem Later.own (h : Later t t') : t.own id <+: t'.own id := h.events.filter _

theorem Known.later (hknown : Known t id cursor) (h : Later t t') : Known t' id cursor := by
  rcases hknown with rfl | ⟨e, he, hcursor⟩
  · exact .inl rfl
  · exact .inr ⟨e, h.own.subset he, hcursor⟩

theorem known_last (t : Tables) (id : String) : Known t id (last sequence (t.own id)) := by
  by_cases hown : t.own id = []
  · exact .inl (by rw [hown]; rfl)
  · exact .inr (last_of_mem hown)

theorem Known.le_last (hs : Sound t) (h : Known t id cursor) : cursor ≤ last sequence (t.own id) := by
  rcases h with rfl | ⟨e, he, rfl⟩
  · exact Nat.zero_le _
  · exact hs.own_ordered.le_last he

theorem eventsSnapshot_known (hs : Sound t) (hc : t.conversations.get? id = some c) (h : Known t id cursor) :
    eventsSnapshot t id cursor = .ok (.events (beyond sequence cursor (t.own id)), c.last_event_seq) := by
  have hlast := h.le_last hs
  rw [← hs.cursor id c hc] at hlast
  have hcursor : (decide ((cursor : Int) = 0) || decide ((cursor : Int) = c.last_event_seq) ||
      t.events.any fun event => event.conversation_id = id && event.sequence = (cursor : Int)) = true := by
    rcases h with rfl | ⟨e, he, rfl⟩
    · simp
    · obtain ⟨he, hid⟩ := List.mem_filter.mp he
      refine Bool.or_eq_true_iff.mpr (.inr (List.any_eq_true.mpr ⟨e, he, ?_⟩))
      simpa using hid
  have hnot : ¬ ((c.last_event_seq : Int) < cursor) := by omega
  have hpos : ¬ ((cursor : Int) < 0) := by omega
  have hread : (t.own id).filter (fun event => decide ((cursor : Int) < event.sequence)) =
      beyond sequence cursor (t.own id) := by
    refine List.filter_congr fun e _ => ?_
    simp
  simp only [eventsSnapshot, hc, need, ok_bind, hcursor, hnot, hpos, decide_false, Bool.not_true, Bool.or_false,
    Bool.false_eq_true, if_false, hread]
  rfl

theorem eventsSnapshot_watermark (hs : Sound t) (h : eventsSnapshot t id after_seq = .ok (batch, watermark)) :
    watermark = last sequence (t.own id) := by
  simp only [eventsSnapshot, bind_ok, need_ok] at h
  obtain ⟨item, hitem, h⟩ := h
  rw [← hs.cursor id item hitem]
  split at h
  · exact (Prod.mk.inj (pure_ok.mp h)).2.symm
  · exact (Prod.mk.inj (pure_ok.mp h)).2.symm

structure Follows (t : Tables) (id : String) (start cursor : Nat) (received : List Event) : Prop where
  known : Known t id cursor
  le : start ≤ cursor
  received : received = between sequence start cursor (t.own id)

theorem Follows.beyond (h : Follows t id start cursor received) (hs : Sound t) :
    received ++ beyond sequence cursor (t.own id) = beyond sequence start (t.own id) := by
  rw [h.received]
  exact filter_split hs.own_ordered h.le

theorem Follows.begins (h : Known t id start) : Follows t id start start [] := by
  refine ⟨h, Nat.le_refl _, (List.filter_eq_nil_iff.mpr fun e _ => ?_).symm⟩
  simp

theorem Follows.later (h : Follows t id start cursor received) (hs : Sound t') (hl : Later t t') :
    Follows t' id start cursor received := by
  refine ⟨h.known.later hl, h.le, ?_⟩
  rw [h.received]
  exact (between_grows hs.own_ordered hl.own h.known).symm

theorem Follows.polled (h : Follows t id start cursor received) (hs : Sound t) :
    Follows t id start (Feeds.last sequence (t.own id))
      (received ++ Feeds.beyond sequence cursor (t.own id)) := by
  refine ⟨known_last t id, h.le.trans (h.known.le_last hs), ?_⟩
  rw [h.beyond hs, hs.own_ordered.between_last]

theorem Polled.follows (h : Polled lib conversation_id start db cursor received) :
    Kept db ∧ Follows db.tables conversation_id start cursor received := by
  induction h with
  | zero hr hzero => exact ⟨kept hr, .begins (.inl hzero)⟩
  | @told db _ _ hr hread =>
    have hs := (kept hr).tables
    refine ⟨kept hr, .begins ?_⟩
    rw [eventsSnapshot_watermark hs hread]
    exact known_last _ _
  | @waited db _ _ action _ ih =>
    have hkept := step_kept lib ih.1 action
    exact ⟨hkept, ih.2.later hkept.tables (step_grows lib ih.1 action).tables⟩
  | @polled db cursor received events watermark _ hread ih =>
    obtain ⟨hk, hf⟩ := ih
    refine ⟨hk, ?_⟩
    have hwater := eventsSnapshot_watermark hk.tables hread
    obtain ⟨c, hc⟩ : ∃ c, db.tables.conversations.get? conversation_id = some c := by
      simp only [eventsSnapshot, bind_ok, need_ok] at hread
      obtain ⟨item, hitem, -⟩ := hread
      exact ⟨item, hitem⟩
    rw [eventsSnapshot_known hk.tables hc hf.known] at hread
    obtain rfl : Feeds.beyond sequence cursor (db.tables.own conversation_id) = events := by
      simp only [Except.ok.injEq, Prod.mk.injEq, Batch.events.injEq] at hread
      exact hread.1
    rw [hwater, hk.tables.own_ordered.next_beyond]
    exact hf.polled hk.tables

end Karajan.Conversations
