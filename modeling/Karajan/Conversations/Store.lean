import Karajan.Lib.Feeds
import Karajan.Planner.Planning

/-!
# Conversations

A conversation is what a user's client follows of a project: its messages, its
draft and the runs that are bound to it. It lives in the database of the runs,
where two components append to one table of events. Parsing a request's fields
is done before; a field that can only have one value is left out.
-/

namespace Karajan.Conversations

-- Rows

structure Conversation where
  (id project_id title : String)
  (commander_profile_ref commander_source_ref : Option String)
  (revision last_event_seq : Nat)
  legacy : Bool
deriving DecidableEq

structure Draft where
  (conversation_id project_id draft_id content : String)
  selected_task_id : Option String
  base_plan_revision : Option Int
  revision : Nat
deriving DecidableEq

structure Message where
  (id conversation_id project_id client_message_id content : String)
  created_at : Rat
deriving DecidableEq

structure TaskDraft where
  (id conversation_id project_id requirement : String)
deriving DecidableEq

structure RunBinding where
  (conversation_id project_id : String)

structure Event where
  sequence : Nat
  (project_id conversation_id event_type : String)
  object_revision : Nat
  object_id : String
  at_time : Rat

structure Tables where
  conversations : Dict String Conversation
  bindings : Dict String RunBinding
  drafts : Dict String Draft
  messages : List Message
  task_drafts : List TaskDraft
  events : List Event

def Tables.empty : Tables := ⟨.empty, .empty, .empty, [], [], []⟩

-- Requests

abbrev Field (α : Type) := Option (Option α)

structure CreateRequest where
  title : Option String
  (commander_profile_ref commander_source_ref : Field String)
deriving DecidableEq

structure SettingsRequest where
  title : Option String
  (commander_profile_ref commander_source_ref : Field String)
deriving DecidableEq

structure MessageRequest where
  (client_message_id content : String)
deriving DecidableEq

structure DraftRequest where
  content : String
  selected_task_id : Field String
  base_plan_revision : Field Int
deriving DecidableEq

inductive Command
  | create (project_id : String) (request : CreateRequest)
  | settings (conversation_id : String) (revision : Int) (request : SettingsRequest)
  | message (conversation_id : String) (request : MessageRequest)
  | draft (conversation_id : String) (revision : Int) (request : DraftRequest)
  | taskDraft (conversation_id : String) (requirement : String)
deriving DecidableEq

structure ConversationError where
  code : String
  revision : Option Nat
deriving DecidableEq

inductive Result
  | conversation (item : Conversation)
  | message (message : Message)
  | draft (draft : Draft)
  | taskDraft (draft : TaskDraft)
deriving DecidableEq

/-- A rejection is recorded; any other error rolls the whole transaction back. -/
inductive Fault
  | rejected (error : ConversationError)
  | crashed
deriving DecidableEq

def Fault.code (code : String) : Fault := .rejected ⟨code, none⟩

structure CommandRow where
  command : Command
  outcome : Except ConversationError Result

structure Database where
  planner : Planner.Database
  tables : Tables
  commands : Dict (String × String) CommandRow
  projects : List String

structure Library extends Planner.PlannerLibrary where
  legacy_conversation_id : String → String

-- Commands on conversations

open Check
variable (lib : Library)

-- Events

def nextSequence (events : List Event) : Nat := Feeds.last Event.sequence events + 1

section
variable (t : Tables)

def Tables.save (item : Conversation) : Tables :=
  { t with conversations := t.conversations.modify item.id fun _ => item }

/-- Append an event of the conversation, and save the conversation with it. -/
def Tables.publish (item : Conversation) (event_type object_id : String)
    (object_revision : Nat) (at_time : Rat) : Tables × Conversation :=
  let sequence := nextSequence t.events
  let event : Event := ⟨sequence, item.project_id, item.id, event_type, object_revision, object_id, at_time⟩
  let item := { item with last_event_seq := sequence }
  ({ t with events := t.events ++ [event] }.save item, item)

/-- The conversation is changed by a command: it has a new revision, and an event. -/
def Tables.changed (item : Conversation) (event_type object_id : String)
    (object_revision : Nat) (at_time : Rat) : Tables :=
  (t.publish { item with revision := item.revision + 1 } event_type object_id object_revision at_time).1

def initialDraft (conversation_id project_id draft_id : String) : Draft :=
  ⟨conversation_id, project_id, draft_id, "", none, none, 1⟩

def Tables.insert (item : Conversation) (draft_id : String) (at_time : Rat) :
    Except Fault (Tables × Conversation) := do
  ensure (!t.conversations.contains item.id && !t.drafts.contains item.id) .crashed
  let t := { t with
    conversations := t.conversations.put item.id item
    drafts := t.drafts.put item.id (initialDraft item.id item.project_id draft_id) }
  return t.publish item "conversation_created" item.id item.revision at_time

-- Checks

def strip (text : String) : String :=
  String.ofList ((text.toList.dropWhile lib.numbers.isspace).reverse.dropWhile lib.numbers.isspace).reverse

def validIdentifier (text : String) : Bool := 0 < text.length && text.length ≤ 128 && text.toList.all fun c =>
    'A' ≤ c && c ≤ 'Z' || 'a' ≤ c && c ≤ 'z' || '0' ≤ c && c ≤ '9' || c = '_' || c = '-'

def validTitle (title : String) : Bool := strip lib title ≠ "" && title.length ≤ 200

def validText (text : String) : Bool := strip lib text ≠ "" && text.length ≤ 20000

def Field.valid (field : Field String) : Bool := field.join.all validIdentifier

def Command.valid : Command → Bool
  | .create _ request => validTitle lib (request.title.getD "New Commander conversation") &&
      Field.valid request.commander_profile_ref && Field.valid request.commander_source_ref
  | .settings _ _ request =>
    (request.title.isSome || request.commander_profile_ref.isSome || request.commander_source_ref.isSome) &&
      Field.valid request.commander_profile_ref && Field.valid request.commander_source_ref &&
      request.title.all (validTitle lib)
  | .message _ request => validIdentifier request.client_message_id && validText lib request.content
  | .draft _ _ request => request.content.length ≤ 20000 && request.base_plan_revision.join.all (0 ≤ ·)
  | .taskDraft _ requirement => validText lib requirement

/-- What the command is on: a project, or a conversation that is there. -/
def Command.subject (db : Database) : Command → Except Fault Unit
  | .create project_id _ => ensure (db.projects.contains project_id) (.code "PROJECT_NOT_FOUND")
  | .settings conversation_id .. | .message conversation_id _ | .draft conversation_id ..
  | .taskDraft conversation_id _ =>
    ensure (db.tables.conversations.contains conversation_id) (.code "CONVERSATION_NOT_FOUND")

/-- What a command is given from outside: identities, the time, and whether a selection is one of
the configured ones. -/
structure World where
  (id draft_id : String)
  at_time : Rat
  configured : String → String → Bool

def validateSelection (w : World) : Option String → Option String → Except Fault Unit
  | none, none => .ok ()
  | some profile, some source =>
    ensure (w.configured profile source) (.code "COMMANDER_SELECTION_NOT_CONFIGURED")
  | some _, none => .error (.code "COMMANDER_SELECTION_NOT_CONFIGURED")
  | none, some _ => .error (.code "COMMANDER_SELECTION_NOT_CONFIGURED")

-- Mutations

def create (w : World) (project_id : String) (request : CreateRequest) (t : Tables) :
    Except Fault (Tables × Result) := do
  validateSelection w request.commander_profile_ref.join request.commander_source_ref.join
  let item : Conversation := {
    id := w.id
    project_id
    title := strip lib (request.title.getD "New Commander conversation")
    commander_profile_ref := request.commander_profile_ref.join
    commander_source_ref := request.commander_source_ref.join
    revision := 1
    last_event_seq := 0
    legacy := false }
  let (t, item) ← t.insert item w.draft_id w.at_time
  return (t, .conversation item)

def settings (w : World) (revision : Int) (request : SettingsRequest) (item : Conversation) (t : Tables) :
    Except Fault (Tables × Result) := do
  let profile := request.commander_profile_ref.getD item.commander_profile_ref
  let source := request.commander_source_ref.getD item.commander_source_ref
  validateSelection w profile source
  ensure (item.revision = revision) (.rejected ⟨"CONVERSATION_REVISION_CONFLICT", some item.revision⟩)
  let item := { item with
    title := (request.title.map (strip lib)).getD item.title
    commander_profile_ref := profile
    commander_source_ref := source
    revision := item.revision + 1 }
  let (t, item) := t.publish item "conversation_settings_saved" item.id item.revision w.at_time
  return (t, .conversation item)

def message (w : World) (request : MessageRequest) (item : Conversation) (t : Tables) :
    Except Fault (Tables × Result) :=
  match t.messages.find? fun message =>
    message.conversation_id = item.id && message.client_message_id = request.client_message_id with
  | some message => .ok (t, .message message)
  | none => do
    ensure (t.messages.all (·.id ≠ w.id)) .crashed
    let message : Message :=
      ⟨w.id, item.id, item.project_id, request.client_message_id, request.content, w.at_time⟩
    let t := { t with messages := t.messages ++ [message] }
    return (t.changed item "message_created" message.id 1 w.at_time, .message message)

/-- The tasks, task drafts and planning attempts of a conversation may be selected. -/
def selectedObjectExists (runs : Planner.Runs) (t : Tables) (conversation_id selected_id : String) : Bool :=
  (t.task_drafts.any fun draft => draft.id = selected_id && draft.conversation_id = conversation_id) ||
    t.bindings.entries.any fun (run_id, binding) =>
      binding.conversation_id = conversation_id && (runs.get? run_id).any fun run =>
        run.project_id = binding.project_id &&
        (t.conversations.get? conversation_id).any (·.project_id = run.project_id) &&
        (run.planning_intents.any (·.id = selected_id) ||
          run.plans.any fun stored => stored.plan.base.tasks.any (·.id = selected_id))

def draft (w : World) (runs : Planner.Runs) (revision : Int) (request : DraftRequest)
    (item : Conversation) (t : Tables) : Except Fault (Tables × Result) := do
  ensure (request.selected_task_id.join.all (selectedObjectExists runs t item.id))
    (.code "TASK_REFERENCE_NOT_FOUND")
  let old := t.drafts.get? item.id
  let current : Nat := (old.map (·.revision)).getD 0
  ensure (revision = (current : Int)) (.rejected ⟨"DRAFT_REVISION_CONFLICT", some current⟩)
  let value : Draft := {
    conversation_id := item.id
    project_id := item.project_id
    draft_id := (old.map (·.draft_id)).getD w.draft_id
    content := request.content
    selected_task_id := request.selected_task_id.join
    base_plan_revision := request.base_plan_revision.join
    revision := current + 1 }
  let t := { t with drafts := t.drafts.put item.id value }
  return (t.changed item "draft_saved" value.draft_id value.revision w.at_time, .draft value)

def taskDraft (w : World) (requirement : String) (item : Conversation) (t : Tables) :
    Except Fault (Tables × Result) := do
  ensure (t.task_drafts.all (·.id ≠ w.id)) .crashed
  let value : TaskDraft := ⟨w.id, item.id, item.project_id, requirement⟩
  let t := { t with task_drafts := t.task_drafts ++ [value] }
  return (t.changed item "task_draft_created" value.id 1 w.at_time, .taskDraft value)

def onConversation (conversation_id : String)
    (mutate : Conversation → Tables → Except Fault (Tables × Result)) : Except Fault (Tables × Result) := do
  let item ← need (t.conversations.get? conversation_id) (.code "CONVERSATION_NOT_FOUND")
  mutate item t

def apply (w : World) (db : Database) : Command → Except Fault (Tables × Result)
  | .create project_id request => create lib w project_id request db.tables
  | .settings conversation_id revision request =>
    onConversation db.tables conversation_id (settings lib w revision request)
  | .message conversation_id request => onConversation db.tables conversation_id (message w request)
  | .draft conversation_id revision request =>
    onConversation db.tables conversation_id (draft w db.planner.runs revision request)
  | .taskDraft conversation_id requirement =>
    onConversation db.tables conversation_id (taskDraft w requirement)

-- Commands

structure StoreCall where
  command : Command
  (principal key : String)

/-- The record of a command answers it again; a new one is recorded with its answer. -/
def record (db : Database) (call : StoreCall) (w : World) : Except Fault Result × Database :=
  match db.commands.get? (call.principal, call.key) with
  | some row =>
    if row.command ≠ call.command then (.error (.code "IDEMPOTENCY_KEY_REUSED"), db)
    else (row.outcome.mapError .rejected, db)
  | none =>
    match apply lib w db call.command with
    | .error .crashed => (.error .crashed, db)
    | .error (.rejected error) => (.error (.rejected error), { db with
        commands := db.commands.put (call.principal, call.key) ⟨call.command, .error error⟩ })
    | .ok (tables, result) => (.ok result, { db with
        tables
        commands := db.commands.put (call.principal, call.key) ⟨call.command, .ok result⟩ })

/-- A project is looked up before the fields of a new conversation, a conversation after those of a
command on it. -/
def Command.check (db : Database) (command : Command) : Except Fault Unit :=
  match command with
  | .create .. => do
    command.subject db
    ensure (command.valid lib) (.code "INPUT_INVALID")
  | .settings .. | .message .. | .draft .. | .taskDraft .. => do
    ensure (command.valid lib) (.code "INPUT_INVALID")
    command.subject db

def performStore (db : Database) (call : StoreCall) (w : World) : Except Fault Result × Database :=
  match call.command.check lib db with
  | .error fault => (.error fault, db)
  | .ok _ => record lib db call w

-- Bindings

/-- The conversation of a project for runs that name none, which is made where it is not there. -/
def ensureLegacy (project_id draft_id : String) (at_time : Rat) : Except Fault Tables :=
  let id := lib.legacy_conversation_id project_id
  match t.conversations.get? id with
  | some conversation => do
    ensure (conversation.project_id = project_id) (.code "CROSS_PROJECT_REFERENCE")
    if t.drafts.contains id then return t
    else return { t with drafts := t.drafts.put id (initialDraft id project_id draft_id) }
  | none =>
    (·.1) <$> t.insert ⟨id, project_id, "Legacy Commander conversation", none, none, 1, 0, true⟩ draft_id at_time

/-- Where no conversation is there, only the one for runs that name none may be made. -/
def conversationFor (project_id : String) (conversation_id : Option String)
    (draft_id : String) (at_time : Rat) : Except Fault Tables :=
  match t.conversations.get? (conversation_id.getD (lib.legacy_conversation_id project_id)) with
  | some conversation => do
    ensure (conversation.project_id = project_id) (.code "CROSS_PROJECT_REFERENCE")
    return t
  | none => do
    ensure conversation_id.isNone (.code "CONVERSATION_NOT_FOUND")
    ensureLegacy lib t project_id draft_id at_time

/-- The binding of a run that is created in the same transaction. -/
def bindConversation (run_id project_id : String) (conversation_id : Option String)
    (draft_id : String) (at_time : Rat) : Except Fault Tables := do
  let t ← conversationFor lib t project_id conversation_id draft_id at_time
  ensure (!t.bindings.contains run_id) .crashed
  let id := conversation_id.getD (lib.legacy_conversation_id project_id)
  return { t with bindings := t.bindings.put run_id ⟨id, project_id⟩ }

/-- The conversation of a binding that names none is made first. -/
def legacyFor (project_id : String) (conversation_id : Option String) (draft_id : String)
    (at_time : Rat) : Except Fault Tables :=
  match conversation_id with
  | none => ensureLegacy lib t project_id draft_id at_time
  | some _ => .ok t

def bindRun (db : Database) (project_id run_id : String) (conversation_id : Option String)
    (draft_id : String) (at_time : Rat) : Except Fault (Tables × String) := do
  ensure (db.projects.contains project_id) (.code "PROJECT_NOT_FOUND")
  let id := conversation_id.getD (lib.legacy_conversation_id project_id)
  let t ← legacyFor lib db.tables project_id conversation_id draft_id at_time
  let item ← need (t.conversations.get? id) (.code "CONVERSATION_NOT_FOUND")
  ensure (item.project_id = project_id) (.code "CROSS_PROJECT_REFERENCE")
  match t.bindings.get? run_id with
  | some previous => do
    ensure (previous.project_id = project_id && previous.conversation_id = id)
      (.code "CROSS_PROJECT_REFERENCE")
    return (t, previous.conversation_id)
  | none => do
    ensure (db.planner.runs.contains run_id) .crashed
    return ({ t with bindings := t.bindings.put run_id ⟨id, project_id⟩ }, id)

-- Planning commands

def eventType : Planner.Action → String
  | .create .. => "run_create"
  | .planningIntent .. => "run_planning_intent"
  | .attachReceipt .. => "run_attach_receipt"
  | .submitPlan .. => "run_submit_plan"
  | .approvePlan .. => "run_approve_plan"
  | .proposeHandoff .. => "run_propose_handoff"
  | .decideHandoff .. => "run_decide_handoff"
  | .planningExecution .. => ""
  | .interrupted => ""

def runOf : Planner.Action → Option String
  | .create _ _ _ _ id => some id
  | .planningIntent run_id .. | .attachReceipt run_id .. | .submitPlan run_id .. | .approvePlan run_id ..
  | .proposeHandoff run_id .. | .decideHandoff run_id .. | .planningExecution run_id .. => some run_id
  | .interrupted => none

/-- A command that had no record, and now has one of its acceptance. -/
def accepted (before after : Planner.Database) (call : Planner.Call) : Bool :=
  !before.commands.contains (call.principal, call.key) &&
    (after.commands.get? (call.principal, call.key)).any (·.outcome.isOk)

/-- Publish what was accepted on a run to the conversation it is bound to. -/
def conversationEvent (runs : Planner.Runs) (action : Planner.Action) (at_time : Rat) : Tables :=
  match runOf action with
  | none => t
  | some run_id =>
    match t.bindings.get? run_id, runs.get? run_id with
    | some binding, some run =>
      match t.conversations.get? binding.conversation_id with
      | some item => (t.publish item (eventType action) run_id run.revision at_time).1
      | none => t
    | some _, none => t
    | none, _ => t

def Fault.rejection? : Fault → Option String
  | .rejected error => some error.code
  | .crashed => some "crashed"

/-- What the binding of a run that is to be created answers, and the tables with it. -/
def created (db : Database) (action : Planner.Action) (draft_id : String) (at_time : Rat) : Except Fault Tables :=
  match action with
  | .create _ conversation_id projects _ id =>
    match projects with
    | .ok projects =>
      bindConversation lib db.tables id projects.project.id conversation_id draft_id at_time
    | .error _ => .ok db.tables
  | .planningIntent .. | .attachReceipt .. | .submitPlan .. | .approvePlan .. | .proposeHandoff ..
  | .decideHandoff .. | .planningExecution .. | .interrupted => .ok db.tables

def withBinding (action : Planner.Action) (bound : Except Fault Tables) : Planner.Action :=
  match action with
  | .create request conversation_id projects _ id =>
    .create request conversation_id projects (match bound with
      | .ok _ => none
      | .error fault => fault.rejection?) id
  | action => action

def performRun (db : Database) (call : Planner.Call) (draft_id : String) :
    Except Planner.Fault Planner.Result × Database :=
  let bound := created lib db call.action draft_id call.now
  let call := { call with action := withBinding call.action bound }
  let (answer, planner) := Planner.perform lib.toPlannerLibrary db.planner call
  if accepted db.planner planner call then
    let t := match bound with
      | .ok t => t
      | .error _ => db.tables
    (answer, { db with planner, tables := conversationEvent t planner.runs call.action call.now })
  else (answer, { db with planner })

-- Reading events

inductive Batch
  | gap (snapshot_event_seq : Nat)
  | events (events : List Event)

def Tables.own (conversation_id : String) : List Event := t.events.filter (·.conversation_id = conversation_id)

/-- What a client that has read so far is sent, and its watermark. -/
def eventsSnapshot (conversation_id : String) (after_seq : Int) : Except Fault (Batch × Nat) := do
  let item ← need (t.conversations.get? conversation_id) (.code "CONVERSATION_NOT_FOUND")
  let watermark := item.last_event_seq
  let known_cursor := after_seq = 0 || after_seq = watermark ||
    t.events.any fun event => event.conversation_id = conversation_id && event.sequence = after_seq
  if after_seq < 0 || (watermark : Int) < after_seq || !known_cursor then
    return (.gap watermark, watermark)
  else
    return (.events ((t.own conversation_id).filter fun event => after_seq < event.sequence), watermark)

end

end Karajan.Conversations
