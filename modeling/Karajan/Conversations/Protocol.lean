import Karajan.Conversations.Stream

/-!
# Refusals and replays

What is refused changes no conversation and no run. A rejection that has its own
record is answered again, in every later state and whatever is given from
outside; a refusal that has none may be answered otherwise later.
-/

namespace Karajan.Conversations

open Planner Dict Check

-- Commands of the store

open Command (subject check)

theorem subject_grows {command : Command} (h : command.subject db = .ok u) (hg : Grows db db') :
    command.subject db' = .ok u := by
  have hthere : ∀ id, db.tables.conversations.contains id → db'.tables.conversations.contains id := by
    intro id hid
    obtain ⟨c, hc⟩ := Option.isSome_iff_exists.mp hid
    obtain ⟨c', hc', -⟩ := hg.tables.conversations id c hc
    exact contains_of_get? hc'
  cases command with
  | create project_id =>
    simp only [subject, ensure_ok, List.contains_iff_mem] at h ⊢
    exact hg.projects project_id h
  | settings id | message id | draft id | taskDraft id =>
    simp only [subject, ensure_ok] at h ⊢
    exact hthere id h

theorem check_ok {command : Command} :
    command.check lib db = .ok u ↔ command.valid lib ∧ command.subject db = .ok u := by
  cases command with
  | create =>
    simp only [check, bind_ok, ensure_ok]
    constructor
    · rintro ⟨_, hsubject, hvalid⟩
      exact ⟨hvalid, hsubject⟩
    · rintro ⟨hvalid, hsubject⟩
      exact ⟨u, hsubject, hvalid⟩
  | _ =>
    simp only [check, bind_ok, ensure_ok]
    simp

theorem check_grows {command : Command} (h : command.check lib db = .ok u) (hg : Grows db db') :
    command.check lib db' = .ok u := by
  rw [check_ok] at h ⊢
  exact ⟨h.1, subject_grows h.2 hg⟩

theorem StoreStep.refused_tables (h : StoreStep db call (.error fault) db') :
    db'.tables = db.tables ∧ db'.planner = db.planner := by
  generalize hanswer : (Except.error fault : Except Fault Result) = answer at h
  cases h with
  | refused | replayed | rejected => exact ⟨rfl, rfl⟩
  | accepted => cases hanswer

theorem performStore_replay (hanswer : (performStore lib db call w).1 = .error fault)
    (hnew : db.commands.get? (call.principal, call.key) = none)
    (hrecorded : (performStore lib db call w).2.commands.contains (call.principal, call.key))
    (hg : Grows (performStore lib db call w).2 db') (hg₀ : Grows db db') (w' : World) :
    performStore lib db' call w' = (.error fault, db') := by
  have hkeep : ¬ db.commands.contains (call.principal, call.key) := by simp [contains, hnew]
  simp only [performStore] at hanswer hrecorded hg ⊢
  cases hcheck : call.command.check lib db with
  | error =>
    rw [hcheck] at hrecorded
    exact absurd hrecorded hkeep
  | ok u =>
    rw [check_grows hcheck hg₀]
    simp only [hcheck, record, hnew] at hanswer hrecorded hg ⊢
    cases happly : apply lib w db call.command with
    | ok =>
      rw [happly] at hanswer
      cases hanswer
    | error other =>
      cases other with
      | crashed =>
        rw [happly] at hrecorded
        exact absurd hrecorded hkeep
      | rejected error =>
        rw [happly] at hanswer hg
        cases hanswer
        have hrow := hg.commands (call.principal, call.key) _ get?_put_self
        simp [hrow, Except.mapError]

-- Planning commands

structure Recorded (L : Planner.PlannerLibrary) (pdb : Planner.Database) (request : Planner.Request)
    (principal key code : String) : Prop where
  identity : (request.runId?.all (Planner.identifier L) && Planner.identifier L principal &&
    Planner.identifier L key) = true
  row : pdb.commands.get? (principal, key) = some ⟨L.digest (.command request), .error code⟩

theorem Recorded.command (h : Recorded L pdb request principal key code)
    (operation : Planner.Runs → Except Planner.Fault (Planner.Result × Planner.Runs)) :
    Planner.command L pdb request principal key now operation = (.error (.rejected code), pdb) := by
  simp only [Planner.command, h.identity, Bool.not_true, Bool.false_eq_true, if_false, h.row, ne_eq,
    not_true_eq_false]
  rfl

theorem Recorded.prepared (h : Recorded L pdb request principal key code) (outside : Except Planner.Fault α)
    (operation : α → Planner.Runs → Except Planner.Fault (Planner.Result × Planner.Runs)) :
    Planner.prepared L pdb request principal key now outside operation = (.error (.rejected code), pdb) := by
  have hidentity := h.identity
  simp only [Bool.and_eq_true] at hidentity
  simp only [Planner.prepared, Planner.answered, hidentity.1.2, hidentity.2, Bool.and_self, Bool.not_true,
    Bool.false_eq_true, if_false, h.row, Option.map_some, ne_eq, not_true_eq_false]
  rfl

theorem Recorded.perform (h : Recorded L pdb request pcall.principal pcall.key code)
    (hrequest : pcall.request? = some request) :
    Planner.perform L pdb pcall = (.error (.rejected code), pdb) := by
  cases haction : pcall.action with
  | create =>
    simp only [Call.request?, haction, Option.some.injEq] at hrequest
    subst hrequest
    simp only [Planner.perform, haction]
    exact h.prepared _ _
  | attachReceipt =>
    simp only [Planner.Call.request?, haction, Option.some.injEq] at hrequest
    subst hrequest
    simp only [Planner.perform, haction]
    exact h.prepared _ _
  | planningExecution | interrupted => simp [Planner.Call.request?, haction] at hrequest
  | _ =>
    simp only [Planner.Call.request?, haction, Option.some.injEq] at hrequest
    subst hrequest
    simp only [Planner.perform, haction]
    exact h.command _

theorem command_recorded (hanswer : (command L pdb request principal key now operation).1 = .error fault)
    (hnew : pdb.commands.get? (principal, key) = none)
    (hrecorded : (command L pdb request principal key now operation).2.commands.contains (principal, key)) :
    ∃ code, fault = .rejected code ∧
      Recorded L (Planner.command L pdb request principal key now operation).2 request principal key code := by
  have hkeep : ¬ pdb.commands.contains (principal, key) := by simp [contains, hnew]
  simp only [Planner.command, hnew] at hanswer hrecorded ⊢
  split at hanswer
  case isTrue hidentity =>
    rw [if_pos hidentity] at hrecorded
    exact absurd hrecorded hkeep
  case isFalse hidentity =>
    rw [if_neg hidentity] at hrecorded ⊢
    cases hrun : operation pdb.runs with
    | ok =>
      rw [hrun] at hanswer
      cases hanswer
    | error other =>
      cases other with
      | crashed =>
        rw [hrun] at hrecorded
        exact absurd hrecorded hkeep
      | rejected code =>
        rw [hrun] at hanswer
        cases hanswer
        exact ⟨code, rfl, by simpa using hidentity, get?_put_self⟩

theorem prepared_recorded {outside : Except Planner.Fault α}
    (hanswer : (Planner.prepared L pdb request principal key now outside operation).1 = .error fault)
    (hnew : pdb.commands.get? (principal, key) = none)
    (hrecorded : (Planner.prepared L pdb request principal key now outside operation).2.commands.contains
      (principal, key)) : ∃ code, fault = .rejected code ∧
      Recorded L (Planner.prepared L pdb request principal key now outside operation).2 request principal key code := by
  have hkeep : ¬ pdb.commands.contains (principal, key) := by simp [contains, hnew]
  simp only [Planner.prepared] at hanswer hrecorded ⊢
  cases hanswered : Planner.answered L pdb request principal key with
  | some answer =>
    rw [hanswered] at hrecorded
    exact absurd hrecorded hkeep
  | none =>
    rw [hanswered] at hanswer hrecorded
    cases outside with
    | error => exact absurd hrecorded hkeep
    | ok given => exact command_recorded hanswer hnew hrecorded

theorem perform_recorded (hanswer : (Planner.perform L pdb pcall).1 = .error fault)
    (hnew : pdb.commands.get? (pcall.principal, pcall.key) = none)
    (hrecorded : (Planner.perform L pdb pcall).2.commands.contains (pcall.principal, pcall.key)) :
    ∃ request code, pcall.request? = some request ∧ fault = .rejected code ∧
      Recorded L (Planner.perform L pdb pcall).2 request pcall.principal pcall.key code := by
  have hkeep : ¬ pdb.commands.contains (pcall.principal, pcall.key) := by simp [contains, hnew]
  cases haction : pcall.action with
  | create =>
    simp only [Planner.perform, haction, Planner.Call.request?] at hanswer hrecorded ⊢
    obtain ⟨code, hfault, hrow⟩ := prepared_recorded hanswer hnew hrecorded
    exact ⟨_, code, rfl, hfault, hrow⟩
  | attachReceipt =>
    simp only [perform, haction, Call.request?] at hanswer hrecorded ⊢
    obtain ⟨code, hfault, hrow⟩ := prepared_recorded hanswer hnew hrecorded
    exact ⟨_, code, rfl, hfault, hrow⟩
  | planningExecution =>
    have hcommands : ∀ run_id intent_id execution_id binding principal key,
        (execute L pdb run_id intent_id execution_id binding principal key).2.commands = pdb.commands := by
      intros
      simp only [execute]
      split
      · rfl
      · split <;> rfl
    simp only [perform, haction, hcommands] at hrecorded
    exact absurd hrecorded hkeep
  | interrupted =>
    simp only [perform, haction] at hrecorded
    exact absurd hrecorded hkeep
  | _ =>
    simp only [perform, haction, Call.request?] at hanswer hrecorded ⊢
    obtain ⟨code, hfault, hrow⟩ := command_recorded hanswer hnew hrecorded
    exact ⟨_, code, rfl, hfault, hrow⟩

end Karajan.Conversations

-- Runs of the conversations

namespace Karajan.Conversations

open Check
variable {conversation_id id : String}

-- Laws

/-- A client has been sent, in order, what lies beyond its start, but for what it is sent next. -/
def Delivers (lib : Library) (db : Database) (conversation_id : String) : Prop :=
  ∀ start cursor received c, Polled lib conversation_id start db cursor received →
    db.tables.conversations.get? conversation_id = some c →
    ∃ events, eventsSnapshot db.tables conversation_id cursor = .ok (.events events, c.last_event_seq) ∧
      received ++ events = Feeds.beyond Event.sequence start (db.tables.own conversation_id) ∧
      Feeds.Ordered Event.sequence (received ++ events)

open Karajan.System (free)

/-- A command that is refused changes nothing but its record, and is refused so ever after where
the record is its own. -/
structure Refuses (lib : Library) (db : Database) : Prop where
  store : ∀ call w fault, (performStore lib db call w).1 = .error fault →
    (performStore lib db call w).2.tables = db.tables ∧
    (performStore lib db call w).2.planner = db.planner ∧
    (db.commands.get? (call.principal, call.key) = none →
      (performStore lib db call w).2.commands.contains (call.principal, call.key) →
      ∀ later w', (conversations lib).Path free (performStore lib db call w).2 later →
        performStore lib later call w' = (.error fault, later))
  run : ∀ call draft_id fault, (performRun lib db call draft_id).1 = .error fault →
    (performRun lib db call draft_id).2.tables = db.tables ∧
    (performRun lib db call draft_id).2.planner.runs = db.planner.runs ∧
    (db.planner.commands.get? (call.principal, call.key) = none →
      (performRun lib db call draft_id).2.planner.commands.contains (call.principal, call.key) →
      ∀ later again draft_id', (conversations lib).Path free (performRun lib db call draft_id).2 later →
        again.request? = call.request? → again.principal = call.principal → again.key = call.key →
        performRun lib later again draft_id' = (.error fault, later))

/-- The action saves the draft at this revision, which nothing answered before. -/
def Saving (lib : Library) (db : Database) (action : Action) (id : String) (revision : Int) (value : Draft) : Prop :=
  ∃ call w request, action = .store call w ∧ call.command = .draft id revision request ∧
    db.commands.get? (call.principal, call.key) = none ∧ (performStore lib db call w).1 = .ok (.draft value)

/-- A draft changes by the saves that are accepted at its revision, each to the next one. -/
structure Drafts (lib : Library) (db : Database) : Prop where
  kept : ∀ action id draft, db.tables.drafts.get? id = some draft →
    ∃ draft', (step lib db action).tables.drafts.get? id = some draft' ∧
      (draft' = draft ∨ Saving lib db action id draft.revision draft')
  saved : ∀ action id revision value, Saving lib db action id revision value →
    ∃ draft, db.tables.drafts.get? id = some draft ∧ revision = draft.revision ∧
      (step lib db action).tables.drafts.get? id = some value ∧ value.revision = draft.revision + 1

-- Proofs

theorem delivers (db : Database) (conversation_id : String) : Delivers lib db conversation_id := by
  intro start cursor received c hpolled hc
  obtain ⟨hk, hfollows⟩ := hpolled.follows
  refine ⟨_, eventsSnapshot_known hk.tables hc hfollows.known, hfollows.beyond hk.tables, ?_⟩
  rw [hfollows.beyond hk.tables]
  exact hk.tables.own_ordered.sublist List.filter_sublist

theorem RunStep.refused (h : RunStep db (.error fault) db') :
    db'.tables = db.tables ∧ db'.planner.runs = db.planner.runs := by
  cases h with
  | kept runs edits refused => exact ⟨(refused fault rfl).2, (refused fault rfl).1⟩

def plannerCall (lib : Library) (db : Database) (call : Planner.Call) (draft_id : String) : Planner.Call :=
  { call with action := withBinding call.action (created lib db call.action draft_id call.now) }

theorem plannerCall_request (call : Planner.Call) (draft_id : String) :
    (plannerCall lib db call draft_id).request? = call.request? := by
  cases haction : call.action <;> simp [plannerCall, withBinding, Planner.Call.request?, haction]

theorem performRun_planner (lib : Library) (db : Database) (call : Planner.Call) (draft_id : String) :
    (performRun lib db call draft_id).1 =
        (Planner.perform lib.toPlannerLibrary db.planner (plannerCall lib db call draft_id)).1 ∧
      (performRun lib db call draft_id).2.planner =
        (Planner.perform lib.toPlannerLibrary db.planner (plannerCall lib db call draft_id)).2 := by
  simp only [performRun, plannerCall]
  split <;> exact ⟨rfl, rfl⟩

theorem performRun_recorded (h : Recorded lib.toPlannerLibrary db.planner request again.principal again.key code)
    (hrequest : again.request? = some request) :
    performRun lib db again draft_id = (.error (.rejected code), db) := by
  have hperform : Planner.perform lib.toPlannerLibrary db.planner (plannerCall lib db again draft_id) =
      (.error (.rejected code), db.planner) :=
    Recorded.perform h ((plannerCall_request again draft_id).trans hrequest)
  have hkept : ¬ accepted db.planner db.planner (plannerCall lib db again draft_id) := by
    intro hacc
    simp only [accepted, Bool.and_eq_true, Bool.not_eq_true', Dict.contains_eq_false] at hacc
    simp [hacc.1] at hacc
  unfold performRun
  simp only [plannerCall] at hperform hkept
  simp [hperform, hkept]

theorem refuses (hk : Kept db) : Refuses lib db := by
  constructor
  case store =>
    intro call w fault hanswer
    have hstep := performStore_step lib hk.tables call w
    have hrefused := (hanswer ▸ hstep).refused_tables
    refine ⟨hrefused.1, hrefused.2, fun hnew hrecorded later w' hp => ?_⟩
    have hgrows := (path_grows (hstep.keeps hk) hp).2
    exact performStore_replay hanswer hnew hrecorded hgrows (hstep.grows.trans hgrows) w'
  case run =>
    intro call draft_id fault hanswer
    have hstep := performRun_step lib hk.tables call draft_id
    have hrefused := (hanswer ▸ hstep).refused
    refine ⟨hrefused.1, hrefused.2, fun hnew hrecorded later again draft_id' hp hrequest hprincipal hkey => ?_⟩
    obtain ⟨hanswered, hplanner⟩ := performRun_planner lib db call draft_id
    rw [hplanner] at hrecorded
    rw [hanswered] at hanswer
    obtain ⟨request, code, hasked, rfl, hrow⟩ := perform_recorded hanswer hnew hrecorded
    have hgrows := (path_grows (hstep.keeps hk) hp).2
    rw [plannerCall_request] at hasked
    have hagain : Recorded lib.toPlannerLibrary later.planner request again.principal again.key code := by
      rw [hprincipal, hkey]
      refine ⟨hrow.identity, hgrows.planned _ _ ?_⟩
      rw [hplanner]
      exact hrow.row
    exact performRun_recorded hagain (hrequest.trans hasked)

theorem StoreStep.drafts (h : StoreStep db call answer db') {draft : Draft}
    (hdraft : db.tables.drafts.get? id = some draft) : ∃ draft', db'.tables.drafts.get? id = some draft' ∧
      (draft' = draft ∨ ∃ request, call.command = .draft id draft.revision request ∧
        db.commands.get? (call.principal, call.key) = none ∧ answer = .ok (.draft draft')) := by
  cases h with
  | refused | replayed | rejected => exact ⟨draft, hdraft, .inl rfl⟩
  | accepted new applied =>
    generalize hcommand : call.command = command at applied
    cases applied with
    | edits edits => exact ⟨draft, edits.drafts hdraft, .inl rfl⟩
    | @saved saved revision request value _ found saves =>
      by_cases hid : saved = id
      · subst hid
        have hvalue : (db.tables.redraft saved value).drafts.get? saved = some value := Dict.get?_put_self
        have hcurrent := saves.current
        simp only [hdraft, Option.map_some, Option.getD_some] at hcurrent
        exact ⟨value, saves.edits.drafts hvalue, .inr ⟨request, by rw [hcurrent], new, rfl⟩⟩
      · refine ⟨draft, saves.edits.drafts ?_, .inl rfl⟩
        exact (Dict.get?_put_of_ne hid).trans hdraft

theorem RunStep.drafts (h : RunStep db answer db') {draft : Draft} (hdraft : db.tables.drafts.get? id = some draft) :
    db'.tables.drafts.get? id = some draft := by
  cases h with
  | kept runs edits | created runs absent edits => exact edits.drafts hdraft

theorem StoreStep.saved (h : StoreStep db call answer db') (hs : Sound db.tables)
    (hcommand : call.command = .draft id revision request)
    (hnew : db.commands.get? (call.principal, call.key) = none) (hanswer : answer = .ok (.draft value)) :
    ∃ draft, db.tables.drafts.get? id = some draft ∧ revision = draft.revision ∧
      db'.tables.drafts.get? id = some value ∧ value.revision = draft.revision + 1 := by
  cases h with
  | refused | rejected => cases hanswer
  | replayed recorded => simp [hnew] at recorded
  | accepted new applied =>
    obtain rfl := Except.ok.inj hanswer
    rw [hcommand] at applied
    generalize hresult : Result.draft value = result at applied
    cases applied with
    | edits _ other => exact absurd rfl (other _ _ _)
    | saved found saves =>
      cases hresult
      obtain ⟨draft, hdraft⟩ := Option.isSome_iff_exists.mp (hs.drafts id found)
      have hcurrent := saves.current
      have hnext := saves.next
      simp only [hdraft, Option.map_some, Option.getD_some] at hcurrent
      refine ⟨draft, hdraft, hcurrent, saves.edits.drafts Dict.get?_put_self, ?_⟩
      omega

theorem drafts (hk : Kept db) : Drafts lib db := by
  constructor
  case kept =>
    intro action id draft hdraft
    cases action with
    | store call w =>
      obtain ⟨draft', hdraft', hsame | ⟨request, hcommand, hnew, hanswer⟩⟩ :=
        (performStore_step lib hk.tables call w).drafts hdraft
      · exact ⟨draft', hdraft', .inl hsame⟩
      · exact ⟨draft', hdraft', .inr ⟨call, w, request, rfl, hcommand, hnew, hanswer⟩⟩
    | bindRun =>
      refine ⟨draft, ?_, .inl rfl⟩
      simp only [step]
      split
      case h_1 _ _ hbind => exact (bindRun_ok hbind).drafts hdraft
      · exact hdraft
    | run call draft_id =>
      exact ⟨draft, (performRun_step lib hk.tables call draft_id).drafts hdraft, .inl rfl⟩
    | register => exact ⟨draft, hdraft, .inl rfl⟩
  case saved =>
    intro action id revision value hsaving
    obtain ⟨call, w, request, rfl, hcommand, hnew, hanswer⟩ := hsaving
    exact (performStore_step lib hk.tables call w).saved hk.tables hcommand hnew hanswer

/-- Over every sequence of commands: a conversation names its last event, and never an earlier one
again; a client gets every later event once and in order, and no gap; what is refused changes
nothing, and is refused so ever after where it has its own record; a draft goes from one revision
to the next; a run stays with one conversation of its project. -/
theorem event_stream (lib : Library) (h : (conversations lib).Reach free db) :
    (∀ id c, db.tables.conversations.get? id = some c →
      c.last_event_seq = Feeds.last Event.sequence (db.tables.own id)) ∧
    (∀ later, (conversations lib).Path free db later → ∀ id c, db.tables.conversations.get? id = some c →
        ∃ c', later.tables.conversations.get? id = some c' ∧ c.last_event_seq ≤ c'.last_event_seq) ∧
    (∀ conversation_id, Delivers lib db conversation_id) ∧
    Refuses lib db ∧ Drafts lib db ∧
    (∀ run_id run, db.planner.runs.get? run_id = some run →
      ∃ b c, db.tables.bindings.get? run_id = some b ∧ b.project_id = run.project_id ∧
        db.tables.conversations.get? b.conversation_id = some c ∧ c.project_id = run.project_id) ∧
    ∀ later, (conversations lib).Path free db later →
      ∀ run_id b, db.tables.bindings.get? run_id = some b → later.tables.bindings.get? run_id = some b := by
  have hk := kept h
  refine ⟨hk.tables.cursor, fun later hp id c hc => ?_, delivers db, refuses hk, drafts hk, hk.bound,
    fun later hp => (path_grows hk hp).2.tables.bindings⟩
  obtain ⟨hlater, hgrows⟩ := path_grows hk hp
  obtain ⟨c', hc', -⟩ := hgrows.tables.conversations id c hc
  refine ⟨c', hc', ?_⟩
  rw [hk.tables.cursor id c hc]
  -- The last event that there was is still one of its events.
  have hknown := (known_last db.tables id).later hgrows.tables
  rw [hlater.tables.cursor id c' hc']
  exact hknown.le_last hlater.tables

-- A sample

namespace StreamSample

def library : Library where
  toPlannerLibrary := Planner.PlanningSample.library
  legacy_conversation_id _ := "l"

def world : World := ⟨"m", "d", 0, fun _ _ => false⟩

def say : StoreCall := ⟨.message "l" ⟨"k", "x"⟩, "o", "1"⟩

def creation : Planner.Call :=
  ⟨.create Planner.PlanningSample.create none (.ok Planner.PlanningSample.projects) none "r", "o", "2", 0⟩

def save : StoreCall := ⟨.draft "l" 1 ⟨"x", none, none⟩, "o", "3"⟩

/-- A message is refused, whose conversation comes with a run; then it is accepted. -/
def actions : List Action := [.store say world, .run creation "d", .store say world, .store save world]

def empty : Database := ⟨⟨.empty, .empty, []⟩, .empty, .empty, []⟩

def final : Database := (conversations library).run empty actions

theorem final_facts : (final.tables.conversations.get? "l").map (·.last_event_seq) = some 4 ∧
    final.tables.events.map (·.event_type) =
      ["conversation_created", "run_create", "message_created", "draft_saved"] ∧
    (final.tables.drafts.get? "l").map (·.revision) = some 2 ∧
    (final.tables.bindings.get? "r").map (·.conversation_id) = some "l" := by
  decide +kernel

theorem final_reach : (conversations library).Reach free final := ⟨empty, rfl, .of_free_run⟩

end StreamSample

open StreamSample in
theorem event_stream_sample : ∃ c, final.tables.conversations.get? "l" = some c ∧ c.last_event_seq = 4 ∧
    4 = Feeds.last Event.sequence (final.tables.own "l") ∧ Delivers library final "l" ∧
    Refuses library final ∧ Drafts library final := by
  obtain ⟨hcursor, -, hdelivers, hrefuses, hdrafts, -, -⟩ := event_stream library final_reach
  obtain ⟨c, hc, hlast⟩ := Option.map_eq_some_iff.mp final_facts.1
  exact ⟨c, hc, hlast, hlast ▸ hcursor "l" c hc, hdelivers "l", hrefuses, hdrafts⟩

open StreamSample in
/-- A message that is refused is accepted when it is sent again: nothing was recorded. -/
theorem refused_then_accepted :
    ¬ ∀ (lib : Library) (db later : Database) (call : StoreCall) (w w' : World) (fault : Fault),
      (conversations lib).Reach free db → (performStore lib db call w).1 = .error fault →
      (conversations lib).Path free (performStore lib db call w).2 later →
      (performStore lib later call w').1 = .error fault := by
  intro h
  have hrefused : (performStore library empty say world).1 = .error (.code "CONVERSATION_NOT_FOUND") := by
    decide +kernel
  have hpath : (conversations library).Path free (performStore library empty say world).2
      ((conversations library).run (performStore library empty say world).2 [.run creation "d"]) := .of_free_run
  have hagain := h library empty _ say world world _ ⟨empty, rfl, .refl⟩ hrefused hpath
  revert hagain
  decide +kernel

end Karajan.Conversations
