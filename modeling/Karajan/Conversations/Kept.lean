import Karajan.Conversations.Store
import Karajan.Planner.Histories

/-!
# What commands keep of conversations

Whatever a command does to the tables is made of three edits: a conversation is
inserted, an event of a conversation is published, or a run is bound. They keep
the events in order, and in each conversation the sequence of its last event.
-/

namespace Karajan.Conversations

open List Dict Check

-- Edits

inductive Edit (t : Tables) : Tables → Prop
  | inserted {t' item c draft_id at_time} (new : t.insert item draft_id at_time = .ok (t', c)) : Edit t t'
  | published {item old : Conversation} {messages : List Message} {task_drafts : List TaskDraft}
      {event_type object_id object_revision at_time}
      (found : t.conversations.get? item.id = some old) (project : item.project_id = old.project_id) :
      Edit t ({ t with messages, task_drafts }.publish item event_type object_id object_revision at_time).1
  | bound {run_id} {binding : RunBinding} (absent : t.bindings.get? run_id = none) :
      Edit t { t with bindings := t.bindings.put run_id binding }
  | drafted {id} {value : Draft} (absent : t.drafts.get? id = none) :
      Edit t { t with drafts := t.drafts.put id value }

abbrev Edits := Relation.ReflTransGen Edit

def Tables.redraft (t : Tables) (id : String) (value : Draft) : Tables :=
  { t with drafts := t.drafts.put id value }

-- What is kept

variable {t t' t₁ t₂ : Tables} {event_type object_id draft_id id project_id run_id : String}

structure Sound (t : Tables) : Prop where
  ordered : Feeds.Ordered Event.sequence t.events
  positive : ∀ e ∈ t.events, 0 < e.sequence
  known : ∀ e ∈ t.events, t.conversations.contains e.conversation_id
  named : ∀ id c, t.conversations.get? id = some c → c.id = id
  cursor : ∀ id c, t.conversations.get? id = some c → c.last_event_seq = Feeds.last Event.sequence (t.own id)
  drafts : ∀ id, t.conversations.contains id → t.drafts.contains id

structure Later (t t' : Tables) : Prop where
  events : t.events <+: t'.events
  conversations : ∀ id c, t.conversations.get? id = some c →
    ∃ c', t'.conversations.get? id = some c' ∧ c'.project_id = c.project_id
  bindings : ∀ run_id b, t.bindings.get? run_id = some b → t'.bindings.get? run_id = some b

theorem Later.refl (t : Tables) : Later t t := ⟨prefix_refl _, fun _ c h => ⟨c, h, rfl⟩, fun _ _ h => h⟩

theorem Later.trans (h : Later t t₁) (h' : Later t₁ t₂) : Later t t₂ := by
  refine ⟨h.events.trans h'.events, fun id c hc => ?_, fun run_id b hb => h'.bindings _ _ (h.bindings _ _ hb)⟩
  obtain ⟨c₁, hc₁, hproject⟩ := h.conversations id c hc
  obtain ⟨c₂, hc₂, hproject'⟩ := h'.conversations id c₁ hc₁
  exact ⟨c₂, hc₂, hproject'.trans hproject⟩

theorem Sound.empty : Sound .empty := by
  constructor
  · exact List.Pairwise.nil
  · simp [Tables.empty]
  · simp [Tables.empty]
  · simp [Tables.empty]
  · simp [Tables.empty]
  · simp [Tables.empty, Dict.contains]

theorem own_concat : { t with events := t.events ++ [e] }.own id =
    if e.conversation_id = id then t.own id ++ [e] else t.own id := by
  by_cases h : e.conversation_id = id <;> simp [Tables.own, filter_append, h]

theorem Sound.own_ordered (h : Sound t) : Feeds.Ordered Event.sequence (t.own id) :=
  h.ordered.sublist filter_sublist

theorem publish_conversations (hfound : t.conversations.get? item.id = some old)
    (h : (t.publish item event_type object_id object_revision at_time).1.conversations.get? id = some c) :
    id = item.id ∧ c = { item with last_event_seq := nextSequence t.events } ∨
      id ≠ item.id ∧ t.conversations.get? id = some c := by
  simp only [Tables.publish, Tables.save, get?_modify] at h
  split at h
  case isTrue heq =>
    subst heq
    rw [hfound, Option.map_some, Option.some.injEq] at h
    exact .inl ⟨rfl, h.symm⟩
  case isFalse hne => exact .inr ⟨hne, h⟩

theorem publish_contains (h : t.conversations.contains id) :
    (t.publish item event_type object_id object_revision at_time).1.conversations.contains id := by
  obtain ⟨c, hc⟩ := Option.isSome_iff_exists.mp h
  simp only [Dict.contains, Tables.publish, Tables.save, Dict.get?_modify, hc, Option.map_some]
  split <;> rfl

/-- An event of a conversation keeps the tables sound, whose cursor was sound before, or is set
here for the first time. -/
theorem Sound.published
    (ordered : Feeds.Ordered Event.sequence t.events) (positive : ∀ e ∈ t.events, 0 < e.sequence)
    (known : ∀ e ∈ t.events, t.conversations.contains e.conversation_id)
    (named : ∀ id c, t.conversations.get? id = some c → c.id = id)
    (cursor : ∀ id c, t.conversations.get? id = some c → id ≠ item.id →
      c.last_event_seq = Feeds.last Event.sequence (t.own id))
    (drafts : ∀ id, t.conversations.contains id → t.drafts.contains id)
    (hfound : t.conversations.get? item.id = some old) :
    Sound (t.publish item event_type object_id object_revision at_time).1 := by
  constructor
  case ordered => exact ordered.concat fun b hb => Nat.lt_succ_of_le (ordered.le_last hb)
  case positive =>
    intro e he
    rcases List.mem_append.mp he with he | he
    · exact positive e he
    · obtain rfl := List.mem_singleton.mp he
      exact Nat.succ_pos _
  case known =>
    intro e he
    rcases List.mem_append.mp he with he | he
    · exact publish_contains (known e he)
    · obtain rfl := List.mem_singleton.mp he
      exact publish_contains (contains_of_get? hfound)
  case named =>
    intro id c hc
    rcases publish_conversations hfound hc with ⟨rfl, rfl⟩ | ⟨_, hc⟩
    · rfl
    · exact named id c hc
  case cursor =>
    intro id c hc
    have hown : (t.publish item event_type object_id object_revision at_time).1.own id =
        if item.id = id then t.own id ++ [⟨nextSequence t.events, item.project_id, item.id, event_type,
          object_revision, object_id, at_time⟩] else t.own id := own_concat
    rcases publish_conversations hfound hc with ⟨rfl, rfl⟩ | ⟨hne, hc⟩
    · simp [hown]
    · rw [hown, if_neg (Ne.symm hne)]
      exact cursor id c hc hne
  case drafts =>
    intro id hid
    obtain ⟨c, hc⟩ := Option.isSome_iff_exists.mp hid
    refine drafts id ?_
    rcases publish_conversations hfound hc with ⟨rfl, -⟩ | ⟨_, hc⟩
    · exact contains_of_get? hfound
    · exact contains_of_get? hc

theorem publish_later (hfound : t.conversations.get? item.id = some old)
    (hproject : item.project_id = old.project_id) :
    Later t (t.publish item event_type object_id object_revision at_time).1 := by
  refine ⟨prefix_append _ _, fun id c hc => ?_, fun _ _ h => h⟩
  have hthere : (t.publish item event_type object_id object_revision at_time).1.conversations.contains id :=
    publish_contains (contains_of_get? hc)
  obtain ⟨c', hc'⟩ := Option.isSome_iff_exists.mp hthere
  refine ⟨c', hc', ?_⟩
  rcases publish_conversations hfound hc' with ⟨rfl, rfl⟩ | ⟨_, hsame⟩
  · cases hfound.symm.trans hc
    exact hproject
  · cases hsame.symm.trans hc
    rfl

theorem insert_ok (h : t.insert item draft_id at_time = .ok (t', c)) :
    t.conversations.get? item.id = none ∧ t.drafts.get? item.id = none ∧
      (t', c) = ({ t with
        conversations := t.conversations.put item.id item
        drafts := t.drafts.put item.id (initialDraft item.id item.project_id draft_id) } : Tables).publish
          item "conversation_created" item.id item.revision at_time := by
  simp only [Tables.insert, bind_ok, ensure_ok, Bool.and_eq_true, Bool.not_eq_true',
    contains_eq_false, pure_ok] at h
  obtain ⟨_, ⟨hnone, hdraft⟩, heq⟩ := h
  exact ⟨hnone, hdraft, heq.symm⟩

theorem Sound.insert (h : Sound t) (hok : t.insert item draft_id at_time = .ok (t', c)) : Sound t' := by
  obtain ⟨hnone, hdraft, heq⟩ := insert_ok hok
  obtain rfl := congrArg Prod.fst heq
  refine Sound.published h.ordered h.positive (fun e he => ?_) (fun id c hc => ?_) (fun id c hc hne => ?_)
    (fun id hid => ?_) Dict.get?_put_self
  · simp only [Dict.contains, Dict.get?_put]
    split
    · rfl
    · exact h.known e he
  · rcases Dict.of_put hc with ⟨heq, rfl⟩ | ⟨-, hc⟩
    · exact heq
    · exact h.named id c hc
  · rw [Dict.get?_put_of_ne (Ne.symm hne)] at hc
    exact h.cursor id c hc
  · simp only [Dict.contains, Dict.get?_put] at hid ⊢
    split
    · rfl
    case isFalse hne =>
      rw [if_neg hne] at hid
      exact h.drafts id hid

theorem insert_later (hok : t.insert item draft_id at_time = .ok (t', c)) : Later t t' := by
  obtain ⟨hnone, -, heq⟩ := insert_ok hok
  obtain rfl := congrArg Prod.fst heq
  refine Later.trans (Later.mk ?_ (fun id c hc => ?_) ?_) (publish_later get?_put_self rfl)
  · exact prefix_refl _
  case refine_3 => exact fun _ _ h => h
  exact ⟨c, get?_put_new hnone hc, rfl⟩

theorem insert_found (hok : t.insert item draft_id at_time = .ok (t', c)) :
    ∃ c', t'.conversations.get? item.id = some c' ∧ c'.project_id = item.project_id := by
  obtain ⟨-, -, heq⟩ := insert_ok hok
  obtain rfl := congrArg Prod.fst heq
  refine ⟨{ item with last_event_seq := nextSequence t.events }, ?_, rfl⟩
  simp [Tables.publish, Tables.save, get?_modify]

theorem Sound.redraft (h : Sound t) : Sound (t.redraft id value) := by
  refine { h with drafts := fun id' hid => ?_ }
  simp only [Tables.redraft, Dict.contains, Dict.get?_put]
  split
  · rfl
  · exact h.drafts id' hid

theorem Edit.sound (h : Edit t t') (hs : Sound t) : Sound t' := by
  cases h with
  | inserted new => exact hs.insert new
  | published found =>
    exact Sound.published hs.ordered hs.positive hs.known hs.named
      (fun id c hc _ => hs.cursor id c hc) hs.drafts found
  | bound => exact { hs with }
  | drafted => exact hs.redraft

theorem Edit.later (h : Edit t t') : Later t t' := by
  cases h with
  | inserted new => exact insert_later new
  | @published item old messages task_drafts _ _ _ _ found project =>
    have hbase : Later t { t with messages, task_drafts } :=
      ⟨prefix_refl _, fun _ c h => ⟨c, h, rfl⟩, fun _ _ h => h⟩
    exact hbase.trans (publish_later found project)
  | bound absent =>
    exact ⟨prefix_refl _, fun _ c h => ⟨c, h, rfl⟩, fun _ _ hb => get?_put_new absent hb⟩
  | drafted => exact ⟨prefix_refl _, fun _ c h => ⟨c, h, rfl⟩, fun _ _ h => h⟩

theorem Edit.drafts (h : Edit t t') (hd : t.drafts.get? id = some d) : t'.drafts.get? id = some d := by
  cases h with
  | @inserted item _ _ _ _ new =>
    obtain ⟨-, hnone, heq⟩ := insert_ok new
    obtain rfl := congrArg Prod.fst heq
    exact get?_put_new hnone hd
  | published | bound => exact hd
  | drafted absent => exact get?_put_new absent hd

theorem Edits.sound (h : Edits t t') (hs : Sound t) : Sound t' := by
  induction h with
  | refl => exact hs
  | tail _ h ih => exact h.sound ih

theorem Edits.later (h : Edits t t') : Later t t' := by
  induction h with
  | refl => exact .refl t
  | tail _ h ih => exact ih.trans h.later

theorem Edits.drafts (h : Edits t t') (hd : t.drafts.get? id = some d) : t'.drafts.get? id = some d := by
  induction h with
  | refl => exact hd
  | tail _ h ih => exact h.drafts ih

end Karajan.Conversations
