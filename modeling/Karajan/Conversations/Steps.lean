import Karajan.Conversations.Kept

/-!
# What commands do

A command of the store, a binding and a planning command are told by what they
do to the tables, with their answers. A planning command is taken as the planner
takes it, and its event is added where it is accepted.
-/

namespace Karajan.Conversations

open Dict Check
open Planner (onRun prepared execute perform newRun)
variable {t t' : Tables} {id project_id run_id : String}

-- Mutations

theorem changed_edit (messages : List Message) (task_drafts : List TaskDraft)
    (hfound : t.conversations.get? item.id = some item) :
    Edit t (({ t with messages, task_drafts } : Tables).changed item event_type object_id
      object_revision at_time) :=
  @Edit.published t { item with revision := item.revision + 1 } item messages task_drafts _ _ _ _ hfound rfl

theorem create_edits (h : create lib w project_id request t = .ok (t', result)) : Edits t t' := by
  simp only [create, bind_ok, pair_ok] at h
  obtain ⟨_, -, ⟨t₁, c⟩, hinsert, rfl, -⟩ := h
  exact .single (.inserted hinsert)

/-- A draft is saved at the revision it has, under the next one. -/
structure Saves (t : Tables) (id : String) (revision : Int) (request : DraftRequest) (value : Draft)
    (t' : Tables) : Prop where
  current : revision = (((t.drafts.get? id).map (·.revision)).getD 0 : Nat)
  next : (value.revision : Int) = revision + 1
  content : value.content = request.content
  edits : Edits (t.redraft id value) t'

section
variable (hfound : t.conversations.get? item.id = some item)
include hfound

theorem settings_edits (h : settings lib w revision request item t = .ok (t', result)) : Edits t t' := by
  simp only [settings, bind_ok, pair_ok] at h
  obtain ⟨_, -, _, -, rfl, -⟩ := h
  exact .single (@Edit.published t _ item t.messages t.task_drafts _ _ _ _ hfound rfl)

theorem message_edits (h : message w request item t = .ok (t', result)) : Edits t t' := by
  simp only [message] at h
  split at h
  · cases h
    exact .refl
  · simp only [bind_ok, pair_ok] at h
    obtain ⟨_, -, rfl, -⟩ := h
    exact .single (changed_edit _ t.task_drafts hfound)

theorem taskDraft_edits (h : taskDraft w requirement item t = .ok (t', result)) : Edits t t' := by
  simp only [taskDraft, bind_ok, pair_ok] at h
  obtain ⟨_, -, rfl, -⟩ := h
  exact .single (changed_edit t.messages _ hfound)

theorem draft_saves (h : draft w runs revision request item t = .ok (t', result)) :
    ∃ value, result = .draft value ∧ Saves t item.id revision request value t' := by
  simp only [draft, bind_ok, ensure_ok, decide_eq_true_eq, pair_ok] at h
  obtain ⟨_, -, _, rfl, rfl, rfl⟩ := h
  refine ⟨_, rfl, rfl, rfl, rfl, .single ?_⟩
  exact changed_edit (t := t.redraft item.id _) t.messages t.task_drafts hfound

end

-- Commands of the store

inductive Applied (t : Tables) : Command → Result → Tables → Prop
  | edits {command result t'} (edits : Edits t t')
      (other : ∀ id revision request, command ≠ .draft id revision request) : Applied t command result t'
  | saved {id revision request value t'} (found : t.conversations.contains id)
      (saves : Saves t id revision request value t') : Applied t (.draft id revision request) (.draft value) t'

theorem onConversation_ok (hs : Sound t) (h : onConversation t id mutate = .ok (t', result)) :
    ∃ item, item.id = id ∧ t.conversations.get? item.id = some item ∧ mutate item t = .ok (t', result) := by
  simp only [onConversation, bind_ok, need_ok] at h
  obtain ⟨item, hfound, hmutate⟩ := h
  have hid := hs.named id item hfound
  subst hid
  exact ⟨item, rfl, hfound, hmutate⟩

theorem apply_applied (hs : Sound db.tables) (h : apply lib w db command = .ok (t', result)) :
    Applied db.tables command result t' := by
  cases command with
  | create => exact .edits (create_edits h) (by simp)
  | settings =>
    obtain ⟨item, -, hfound, hmutate⟩ := onConversation_ok hs h
    exact .edits (settings_edits hfound hmutate) (by simp)
  | message =>
    obtain ⟨item, -, hfound, hmutate⟩ := onConversation_ok hs h
    exact .edits (message_edits hfound hmutate) (by simp)
  | draft =>
    obtain ⟨item, rfl, hfound, hmutate⟩ := onConversation_ok hs h
    obtain ⟨value, rfl, hsaves⟩ := draft_saves hfound hmutate
    exact .saved (contains_of_get? hfound) hsaves
  | taskDraft =>
    obtain ⟨item, -, hfound, hmutate⟩ := onConversation_ok hs h
    exact .edits (taskDraft_edits hfound hmutate) (by simp)

inductive StoreStep (db : Database) (call : StoreCall) : Except Fault Result → Database → Prop
  | refused {fault} : StoreStep db call (.error fault) db
  | replayed {row} (recorded : db.commands.get? (call.principal, call.key) = some row)
      (same : row.command = call.command) : StoreStep db call (row.outcome.mapError .rejected) db
  | rejected {error} (new : db.commands.get? (call.principal, call.key) = none) :
      StoreStep db call (.error (.rejected error)) { db with
        commands := db.commands.put (call.principal, call.key) ⟨call.command, .error error⟩ }
  | accepted {result tables} (new : db.commands.get? (call.principal, call.key) = none)
      (applied : Applied db.tables call.command result tables) :
      StoreStep db call (.ok result) { db with
        tables
        commands := db.commands.put (call.principal, call.key) ⟨call.command, .ok result⟩ }

variable (lib) in
theorem performStore_step (hs : Sound db.tables) (call : StoreCall) (w : World) :
    StoreStep db call (performStore lib db call w).1 (performStore lib db call w).2 := by
  simp only [performStore, record]
  cases hcheck : call.command.check lib db with
  | error fault => exact .refused
  | ok =>
    cases hrow : db.commands.get? (call.principal, call.key) with
    | some row =>
      by_cases hsame : row.command = call.command
      · simp only [hsame, ne_eq, not_true_eq_false, if_false]
        exact .replayed hrow hsame
      · simp only [ne_eq, hsame, not_false_eq_true, if_true]
        exact .refused
    | none =>
      cases happly : apply lib w db call.command with
      | error fault =>
        cases fault with
        | crashed => exact .refused
        | rejected error => exact .rejected hrow
      | ok applied =>
        exact .accepted hrow (apply_applied hs happly)

-- Bindings

theorem ensureLegacy_ok (h : ensureLegacy lib t project_id draft_id at_time = .ok t') :
    Edits t t' ∧ ∃ c, t'.conversations.get? (lib.legacy_conversation_id project_id) = some c ∧ c.project_id = project_id := by
  simp only [ensureLegacy] at h
  split at h
  case h_1 c hfound =>
    simp only [bind_ok, ensure_ok, decide_eq_true_eq] at h
    obtain ⟨_, hproject, h⟩ := h
    split at h
    · obtain rfl := pure_ok.mp h
      exact ⟨.refl, c, hfound, hproject⟩
    case isFalse hnone =>
      obtain rfl := pure_ok.mp h
      refine ⟨.single (.drafted ?_), c, hfound, hproject⟩
      exact Dict.contains_eq_false.mp (by simpa using hnone)
  · obtain ⟨⟨t₁, c⟩, hinsert, rfl⟩ := map_ok.mp h
    obtain ⟨c', hc', hproject⟩ := insert_found hinsert
    exact ⟨.single (.inserted hinsert), c', hc', hproject⟩

def Tables.Binds (t : Tables) (run_id project_id : String) : Prop :=
  ∃ b c, t.bindings.get? run_id = some b ∧ b.project_id = project_id ∧
    t.conversations.get? b.conversation_id = some c ∧ c.project_id = project_id

theorem Later.binds (h : Later t t') (hb : t.Binds run_id project_id) : t'.Binds run_id project_id := by
  obtain ⟨b, c, hrun, hproject, hc, hc'⟩ := hb
  obtain ⟨c', hfound, hsame⟩ := h.conversations _ c hc
  exact ⟨b, c', h.bindings _ b hrun, hproject, hfound, hsame.trans hc'⟩

theorem conversationFor_ok (h : conversationFor lib t project_id conversation_id draft_id at_time = .ok t') :
    Edits t t' ∧ ∃ c, t'.conversations.get?
      (conversation_id.getD (lib.legacy_conversation_id project_id)) = some c ∧ c.project_id = project_id := by
  simp only [conversationFor] at h
  split at h
  case h_1 c hfound =>
    simp only [bind_ok, ensure_ok, decide_eq_true_eq, pure_ok] at h
    obtain ⟨_, hproject, rfl⟩ := h
    exact ⟨.refl, c, hfound, hproject⟩
  · simp only [bind_ok, ensure_ok, Option.isNone_iff_eq_none] at h
    obtain ⟨_, rfl, hlegacy⟩ := h
    exact ensureLegacy_ok hlegacy

theorem bindConversation_ok
    (h : bindConversation lib t run_id project_id conversation_id draft_id at_time = .ok t') :
    Edits t t' ∧ t'.Binds run_id project_id := by
  simp only [bindConversation, bind_ok, ensure_ok, Bool.not_eq_true', contains_eq_false, pure_ok] at h
  obtain ⟨t₁, hbase, _, habsent, rfl⟩ := h
  obtain ⟨hedits, c, hc, hproject⟩ := conversationFor_ok hbase
  exact ⟨hedits.tail (.bound habsent), _, c, get?_put_self, rfl, hc, hproject⟩

theorem bindRun_ok (h : bindRun lib db project_id run_id conversation_id draft_id at_time = .ok (t', id)) :
    Edits db.tables t' := by
  simp only [bindRun, bind_ok, need_ok] at h
  obtain ⟨_, -, t₁, hbase, item, -, _, -, h⟩ := h
  have hedits : Edits db.tables t₁ := by
    cases conversation_id with
    | none => exact (ensureLegacy_ok hbase).1
    | some =>
      cases hbase
      exact .refl
  split at h
  · simp only [bind_ok, pair_ok] at h
    obtain ⟨_, -, rfl, -⟩ := h
    exact hedits
  case h_2 habsent =>
    simp only [bind_ok, pair_ok] at h
    obtain ⟨_, -, rfl, -⟩ := h
    exact hedits.tail (.bound habsent)

-- Planning commands

def SameRuns (runs runs' : Planner.Runs) : Prop :=
  ∀ run_id, (runs'.get? run_id).map (·.project_id) = (runs.get? run_id).map (·.project_id)

theorem Move.project (h : Planner.Move L run changed) : changed.project_id = run.project_id := by
  cases h <;> rfl

theorem SameRuns.moved (hfound : runs.get? run_id = some run)
    (hm : Planner.Move L run changed) : SameRuns runs (runs.put run_id (run.saved changed)) := by
  intro run_id'
  rw [get?_put]
  split
  case isTrue heq =>
    subst heq
    have hproject : changed.project_id = run.project_id := Move.project hm
    simp only [hfound, Option.map_some]
    exact congrArg some hproject
  · rfl

theorem command_same (hop : ∀ result runs, operation pdb.runs = .ok (result, runs) → SameRuns pdb.runs runs) :
    SameRuns pdb.runs (Planner.command L pdb request principal key now operation).2.runs := by
  simp only [Planner.command]
  split
  · exact fun _ => rfl
  · split
    · split <;> exact fun _ => rfl
    · split
      case h_3 result runs hrun => exact hop result runs hrun
      all_goals exact fun _ => rfl

theorem onRun_same
    (hop : ∀ run result changed, operation run = .ok (result, changed) → Planner.Move L run changed) :
    SameRuns pdb.runs (Planner.command L pdb request principal key now (onRun L run_id operation)).2.runs := by
  refine command_same fun result runs h => ?_
  simp only [onRun, bind_ok, ensure_ok, need_ok, pair_ok] at h
  obtain ⟨_, -, run, hfound, ⟨result', changed⟩, hrun, -, rfl⟩ := h
  exact .moved hfound (hop run result' changed hrun)

theorem prepared_same {outside : Except Planner.Fault α} (hop : ∀ given, SameRuns pdb.runs
      (Planner.command L pdb request principal key now (operation given)).2.runs) :
    SameRuns pdb.runs (prepared L pdb request principal key now outside operation).2.runs := by
  simp only [prepared]
  split
  · exact fun _ => rfl
  · split
    · exact fun _ => rfl
    · exact hop _

theorem execute_same : SameRuns pdb.runs
    (execute L pdb run_id intent_id execution_id binding_sha256 principal key).2.runs := by
  simp only [execute]
  split
  · exact fun _ => rfl
  case h_2 run hfound =>
    simp only [Planner.executed, bind_ok, need_ok] at hfound
    obtain ⟨_, -, hfound⟩ := hfound
    split
    case h_3 changed hexecution => exact .moved hfound (Planner.planningExecution_move (L := L) hexecution)
    all_goals exact fun _ => rfl

theorem perform_same (L : Planner.PlannerLibrary) (pdb : Planner.Database)
    (hother : ∀ request conversation_id projects conversation id,
    pcall.action ≠ .create request conversation_id projects conversation id) :
    SameRuns pdb.runs (perform L pdb pcall).2.runs := by
  cases haction : pcall.action with
  | create => exact absurd haction (hother _ _ _ _ _)
  | planningIntent =>
    simp only [perform, haction]
    exact onRun_same fun _ _ _ h => Planner.planningIntent_move h
  | attachReceipt =>
    simp only [perform, haction]
    exact prepared_same fun _ => onRun_same fun _ _ _ h => Planner.attachReceipt_move h
  | submitPlan =>
    simp only [perform, haction]
    exact onRun_same fun _ _ _ h => Planner.submitPlan_move h
  | approvePlan =>
    simp only [perform, haction]
    exact onRun_same fun _ _ _ h => Planner.approvePlan_move h
  | proposeHandoff =>
    simp only [perform, haction]
    exact onRun_same fun _ _ _ h => Planner.proposeHandoff_move h
  | decideHandoff =>
    simp only [perform, haction]
    exact onRun_same fun _ _ _ h => Planner.decideHandoff_move h
  | planningExecution =>
    simp only [perform, haction]
    exact execute_same
  | interrupted =>
    simp only [perform, haction]
    exact fun _ => rfl

theorem newRun_ok (h : newRun L request projects principal identity = .ok run) :
    run.id = identity ∧ run.project_id = projects.project.id := by
  simp only [newRun, bind_ok, pure_ok] at h
  obtain ⟨_, -, _, -, _, -, _, -, lead, -, _, -, _, -, rfl⟩ := h
  exact ⟨rfl, rfl⟩

/-- What a call to create does: nothing to the runs, or its run is new, of the project that the
projects answered, and nothing was against its binding. -/
theorem perform_create (L : Planner.PlannerLibrary) (pdb : Planner.Database) (pcall : Planner.Call)
    (haction : pcall.action = .create request conversation_id projects conversation id) :
    (perform L pdb pcall).2.runs = pdb.runs ∧ ¬ accepted pdb (perform L pdb pcall).2 pcall ∨
      ∃ given run, projects = .ok given ∧ conversation = none ∧ run.id = id ∧
        run.project_id = given.project.id ∧ pdb.runs.get? id = none ∧
        (perform L pdb pcall).1 = .ok (.run run) ∧
        (perform L pdb pcall).2.runs = pdb.runs.put id run ∧
        accepted pdb (perform L pdb pcall).2 pcall := by
  have hkept : ¬ accepted pdb pdb pcall := by
    intro h
    simp only [accepted, Bool.and_eq_true, Bool.not_eq_true', contains_eq_false] at h
    simp [h.1] at h
  simp only [perform, haction, prepared]
  split
  · exact .inl ⟨rfl, hkept⟩
  · split
    · exact .inl ⟨rfl, hkept⟩
    case h_2 run hgiven =>
      obtain ⟨given, rfl, hnew⟩ := bind_ok.mp hgiven
      obtain ⟨rfl, hproject⟩ := newRun_ok hnew
      simp only [Planner.command]
      split
      · exact .inl ⟨rfl, hkept⟩
      · split
        · split <;> exact .inl ⟨rfl, hkept⟩
        case h_2 hrow =>
          split
          · exact .inl ⟨rfl, hkept⟩
          · refine .inl ⟨rfl, fun h => ?_⟩
            simp [accepted, Except.isOk, Except.toBool] at h
          case h_3 result runs hinsert =>
            obtain ⟨rfl, rfl, habsent⟩ := Planner.insertRun_ok hinsert
            have hnone : conversation = none := by
              cases conversation with
              | none => rfl
              | some => simp [Planner.insertRun, Planner.passes, bind_ok] at hinsert
            refine .inr ⟨given, run, rfl, hnone, rfl, hproject, habsent, rfl, rfl, ?_⟩
            simp [accepted, Except.isOk, Except.toBool, contains, hrow]

theorem conversationEvent_edits (hs : Sound t) : Edits t (conversationEvent t runs action at_time) := by
  simp only [conversationEvent]
  split
  · exact .refl
  · split
    case h_1 binding _ _ =>
      split
      case h_1 item hitem =>
        have hid := hs.named _ _ hitem
        rw [← hid] at hitem
        exact .single (@Edit.published t item item t.messages t.task_drafts _ _ _ _ hitem rfl)
      · exact .refl
    all_goals exact .refl

inductive RunStep (db : Database) : Except Planner.Fault Planner.Result → Database → Prop
  | kept {answer planner tables} (runs : SameRuns db.planner.runs planner.runs)
      (edits : Edits db.tables tables)
      (refused : ∀ fault, answer = .error fault → planner.runs = db.planner.runs ∧ tables = db.tables) :
      RunStep db answer { db with planner, tables }
  | created {run planner tables} (runs : planner.runs = db.planner.runs.put run.id run)
      (absent : db.planner.runs.get? run.id = none) (edits : Edits db.tables tables)
      (binds : tables.Binds run.id run.project_id) :
      RunStep db (.ok (.run run)) { db with planner, tables }

theorem Step.refused (h : Planner.Step L pdb pcall (.error fault) pdb') :
    pdb'.runs = pdb.runs ∧ ¬ accepted pdb pdb' pcall := by
  refine ⟨h.rejected_runs, fun hacc => ?_⟩
  cases h with
  | unchanged =>
    simp only [accepted, Bool.and_eq_true, Bool.not_eq_true', contains_eq_false] at hacc
    simp [hacc.1] at hacc
  | rejected new recorded => simp [accepted, recorded, Except.isOk, Except.toBool] at hacc

theorem created_other (lib : Library) (db : Database) (draft_id : String) (at_time : Rat)
    (hother : ∀ request conversation_id projects conversation id,
    action ≠ .create request conversation_id projects conversation id) :
    created lib db action draft_id at_time = .ok db.tables ∧
      ∀ bound, withBinding action bound = action := by
  cases action with
  | create => exact absurd rfl (hother _ _ _ _ _)
  | _ => exact ⟨rfl, fun _ => rfl⟩

theorem performRun_other (hs : Sound db.tables) (call : Planner.Call) (draft_id : String)
    (hother : ∀ request conversation_id projects conversation id,
      call.action ≠ .create request conversation_id projects conversation id) :
    RunStep db (performRun lib db call draft_id).1 (performRun lib db call draft_id).2 := by
  obtain ⟨hcreated, hbinding⟩ := created_other lib db draft_id call.now hother
  have hsame := perform_same lib.toPlannerLibrary db.planner hother
  have hrefused : ∀ fault, (perform lib.toPlannerLibrary db.planner call).1 = .error fault → _ :=
    fun fault hfault => Step.refused (hfault ▸ Planner.perform_step call)
  simp only [performRun, hcreated, hbinding]
  split
  case isTrue hacc =>
    refine .kept hsame (conversationEvent_edits hs) fun fault hfault => ?_
    exact absurd hacc (hrefused fault hfault).2
  · exact .kept hsame .refl fun fault hfault => ⟨(hrefused fault hfault).1, rfl⟩

variable (lib) in
theorem performRun_step (hs : Sound db.tables) (call : Planner.Call) (draft_id : String) :
    RunStep db (performRun lib db call draft_id).1 (performRun lib db call draft_id).2 := by
  cases haction : call.action with
  | create request conversation_id projects conversation id =>
    simp only [performRun, haction]
    generalize hbound : created lib db _ draft_id call.now = bound
    rcases perform_create lib.toPlannerLibrary db.planner
      { call with action := withBinding (.create request conversation_id projects conversation id) bound }
      rfl with ⟨hruns, hkept⟩ | ⟨given, run, rfl, hnone, rfl, hproject, habsent, hanswer, hruns, hacc⟩
    · rw [if_neg hkept]
      exact .kept (fun _ => by rw [hruns]) .refl fun _ _ => ⟨hruns, rfl⟩
    · rw [if_pos hacc]
      cases bound with
      | error fault => cases fault <;> simp [Fault.rejection?] at hnone
      | ok t =>
        obtain ⟨hedits, hbinds⟩ := bindConversation_ok hbound
        have hevent : ∀ runs action, Edits t (conversationEvent t runs action call.now) :=
          fun _ _ => conversationEvent_edits (hedits.sound hs)
        rw [hanswer]
        refine .created hruns habsent (hedits.trans (hevent _ _)) ((hevent _ _).later.binds ?_)
        rw [hproject]
        exact hbinds
  | _ => exact performRun_other hs call draft_id (by simp [haction])

end Karajan.Conversations
