import Mathlib.Data.List.Forall2
import Karajan.Lib.Yaml

/-!
# Sections of a document

Two documents say the same when they differ at most in the order of the entries
of a mapping. A section is a mapping read field by field; a field has a value
where it is absent, a normal form and a part that is never read. What a section
says is split here into its normal form, which keeps everything, and what is
left unread of it.
-/

namespace Karajan

open List

-- Documents that say the same

inductive Same : Yaml → Yaml → Prop
  | null : Same .null .null
  | bool : Same (.bool b) (.bool b)
  | int : Same (.int n) (.int n)
  | text : Same (.text s) (.text s)
  | other : Same (.other shown) (.other shown)
  | list : List.Forall₂ Same items items' → Same (.list items) (.list items')
  | map : (∀ k, Option.Rel Same (Dict.lookup k m) (Dict.lookup k m')) → Same (.map m) (.map m')

theorem same_list : Same (.list items) (.list items') ↔ List.Forall₂ Same items items' :=
  ⟨fun | .list h => h, .list⟩

theorem same_map : Same (.map m) (.map m') ↔ ∀ k, Option.Rel Same (Dict.lookup k m) (Dict.lookup k m') :=
  ⟨fun | .map h => h, .map⟩

theorem rel_some {R : α → β → Prop} : Option.Rel R (some a) (some b) ↔ R a b :=
  ⟨fun | .some h => h, .some⟩

theorem rel_none {R : α → β → Prop} : Option.Rel R none o ↔ o = none := by
  cases o with
  | none => exact ⟨fun _ => rfl, fun _ => .none⟩
  | some b => exact ⟨fun h => (nomatch h), fun h => (nomatch h)⟩

theorem rel_some_none {R : α → β → Prop} : ¬ Option.Rel R (some a) none := nofun

mutual
theorem Same.refl (value : Yaml) : Same value value :=
  match value with
  | .null => .null
  | .bool _ => .bool
  | .int _ => .int
  | .text _ => .text
  | .other _ => .other
  | .list items => .list (Same.refl_items items)
  | .map m => .map (Same.refl_entries m)
theorem Same.refl_items (items : List Yaml) : List.Forall₂ Same items items :=
  match items with
  | [] => .nil
  | item :: rest => .cons (Same.refl item) (Same.refl_items rest)
theorem Same.refl_entries (m : Mapping) (k : Key) : Option.Rel Same (Dict.lookup k m) (Dict.lookup k m) :=
  match m with
  | [] => .none
  | (k', value) :: rest => by
    rw [Dict.lookup]
    split
    · exact .some (Same.refl value)
    · exact Same.refl_entries rest k
end

theorem Same.of_eq (h : value = value') : Same value value' := h ▸ Same.refl value

theorem Same.of_lookup (h : ∀ k, Dict.lookup k m = Dict.lookup k m') : Same (.map m) (.map m') :=
  .map fun k => h k ▸ Same.refl_entries m k

-- Sections

structure Field where
  name : String
  missing : Yaml
  nullable : Bool
  normal : Yaml → Yaml
  unread : Yaml → Option Yaml

abbrev Section := List Field

def Field.value (f : Field) (m : Mapping) : Yaml :=
  match m.find f.name with
  | none => f.missing
  | some .null => if f.nullable then f.missing else .null
  | some value => value

/-- The part of two values that is not read decides whether the values are the same. -/
def Field.Agrees (f : Field) (value value' : Yaml) : Prop :=
  Same (f.normal value) (f.normal value') ↔ Option.Rel Same (f.unread value) (f.unread value')

namespace Section

variable (s : Section)

def keys : List Key := s.map fun f => .text f.name

/-- The fields, in the order of the section, and every entry that is none of them. -/
def entries (content : Field → Option Yaml) (m : Mapping) : Mapping :=
  s.filterMap (fun f => (content f).map fun value => (.text f.name, value)) ++
    m.filter fun e => !s.keys.contains e.1

def normal (m : Mapping) : Mapping := s.entries (fun f => some (f.normal (f.value m))) m

/-- The entries that are no field and what is not read of the fields. -/
def unread (m : Mapping) : Mapping := s.entries (fun f => f.unread (f.value m)) m

variable {s}

theorem mem_fields {content : Field → Option Yaml}
    (hk : k ∈ (s.filterMap fun f => (content f).map fun value => (Key.text f.name, value)).map
      Prod.fst) : k ∈ s.keys := by
  simp only [mem_map, mem_filterMap, Option.map_eq_some_iff] at hk
  obtain ⟨_, ⟨f, hf, _, -, rfl⟩, rfl⟩ := hk
  exact List.mem_map.mpr ⟨f, hf, rfl⟩

theorem lookup_fields {content : Field → Option Yaml} (hs : s.keys.Nodup) (hf : f ∈ s) :
    Dict.lookup (.text f.name)
      (s.filterMap fun f => (content f).map fun value => (Key.text f.name, value)) = content f := by
  induction s with
  | nil => cases hf
  | cons g s ih =>
    simp only [keys, map_cons, nodup_cons] at hs
    have hother : f ∈ s → g.name ≠ f.name := fun hm heq =>
      hs.1 (List.mem_map.mpr ⟨f, hm, by rw [heq]⟩)
    rw [filterMap_cons]
    rcases List.mem_cons.mp hf with rfl | hm
    · cases hcontent : content f with
      | none =>
        exact Dict.lookup_eq_none.mpr fun hk => hs.1 (mem_fields hk)
      | some value => simp [Dict.lookup]
    · cases content g with
      | none => exact ih hs.2 hm
      | some value => simpa [Dict.lookup, hother hm] using ih hs.2 hm

theorem lookup_fields_none {content : Field → Option Yaml} (hk : k ∉ s.keys) :
    Dict.lookup k (s.filterMap fun f => (content f).map fun value => (Key.text f.name, value)) =
      none := Dict.lookup_eq_none.mpr fun hm => hk (mem_fields hm)

theorem lookup_rest {m : Mapping} : Dict.lookup k (m.filter fun e => !s.keys.contains e.1) =
    if k ∈ s.keys then none else Dict.lookup k m := by
  induction m with
  | nil => simp [Dict.lookup]
  | cons e m ih =>
    obtain ⟨k', value⟩ := e
    by_cases hk' : k' ∈ s.keys
    · rw [filter_cons_of_neg (by simpa using hk'), ih, Dict.lookup]
      by_cases hk : k ∈ s.keys
      · rw [if_pos hk, if_pos hk]
      · have hne : k' ≠ k := fun heq => hk (heq ▸ hk')
        rw [if_neg hk, if_neg hk, if_neg hne]
    · rw [filter_cons_of_pos (by simpa using hk'), Dict.lookup, Dict.lookup]
      split
      case isTrue heq =>
        subst heq
        rw [if_neg hk']
      · exact ih

theorem lookup_entries_field {content : Field → Option Yaml} (hs : s.keys.Nodup) (hf : f ∈ s) :
    Dict.lookup (.text f.name) (s.entries content m) = content f := by
  have hk : Key.text f.name ∈ s.keys := List.mem_map.mpr ⟨f, hf, rfl⟩
  rw [entries, Dict.lookup_append, lookup_fields hs hf, lookup_rest, if_pos hk, Option.or_none]

theorem lookup_entries_rest {content : Field → Option Yaml} (hk : k ∉ s.keys) :
    Dict.lookup k (s.entries content m) = Dict.lookup k m := by
  rw [entries, Dict.lookup_append, lookup_fields_none hk, lookup_rest, if_neg hk, Option.none_or]

theorem same_entries (hs : s.keys.Nodup) : Same (.map (s.entries content m)) (.map (s.entries content' m')) ↔
      (∀ f ∈ s, Option.Rel Same (content f) (content' f)) ∧
      ∀ k, k ∉ s.keys → Option.Rel Same (Dict.lookup k m) (Dict.lookup k m') := by
  rw [same_map]
  constructor
  · intro h
    constructor
    · intro f hf
      simpa only [lookup_entries_field hs hf] using h (.text f.name)
    · intro k hk
      simpa only [lookup_entries_rest hk] using h k
  · rintro ⟨hfields, hrest⟩ k
    by_cases hk : k ∈ s.keys
    · obtain ⟨f, hf, rfl⟩ := List.mem_map.mp hk
      simpa only [lookup_entries_field hs hf] using hfields f hf
    · simpa only [lookup_entries_rest hk] using hrest k hk

/-- Where the read part of every field agrees, two sections are the same exactly when
what is not read of them is. -/
theorem agrees (hs : s.keys.Nodup) (h : ∀ f ∈ s, f.Agrees (f.value m) (f.value m')) :
    Same (.map (s.normal m)) (.map (s.normal m')) ↔ Same (.map (s.unread m)) (.map (s.unread m')) := by
  unfold normal unread
  rw [same_entries hs, same_entries hs]
  refine and_congr_left fun _ => forall₂_congr fun f hf => ?_
  rw [rel_some]
  exact h f hf

end Section

-- Kinds of fields

namespace Field

def read (name : String) (missing : Yaml) (nullable : Bool) : Field :=
  ⟨name, missing, nullable, fun value => value, fun _ => none⟩

def texts (name : String) (missing : Yaml) (nullable : Bool) (order : List String → List String) : Field :=
  ⟨name, missing, nullable, fun value => match value.texts? with
      | some items => .ofTexts (order items)
      | none => value,
    fun _ => none⟩

/-- A field that is read where its value is of a kind that it is meant to be of. -/
def partly (name : String) (missing : Yaml) (nullable : Bool) (reads : Yaml → Bool) : Field :=
  ⟨name, missing, nullable, fun value => value, fun value => if reads value then none else some value⟩

def inner (name : String) (missing : Yaml) (nullable : Bool) (normal unread : Yaml → Yaml) : Field :=
  ⟨name, missing, nullable, normal, fun value => some (unread value)⟩

end Field

def onMap (f : Mapping → Mapping) : Yaml → Yaml
  | .map m => .map (f m)
  | value => value

def onItems (f : Yaml → Yaml) : Yaml → Yaml
  | .list items => .list (items.map f)
  | value => value

namespace Field

def record (name : String) (missing : Yaml) (nullable : Bool) (s : Section) : Field :=
  inner name missing nullable (onMap s.normal) (onMap s.unread)

def records (name : String) (missing : Yaml) (nullable : Bool) (s : Section) : Field :=
  inner name missing nullable (onItems (onMap s.normal)) (onItems (onMap s.unread))

theorem value_getD {f : Field} (h : f.nullable = false) : f.value m = m.getD f.name f.missing := by
  unfold value Mapping.getD
  rw [h]
  cases m.find f.name with
  | none => rfl
  | some value => cases value <;> rfl

theorem value_nullable {f : Field} (h : f.nullable = true) :
    f.value m = if (m.get f.name).isNull then f.missing else m.get f.name := by
  unfold value Mapping.get
  rw [h]
  cases m.find f.name with
  | none => rfl
  | some value => cases value <;> rfl

section
variable {value value' missing : Yaml} {name : String} {nullable : Bool}

theorem read_agrees (h : Same value value') : (read name missing nullable).Agrees value value' :=
  iff_of_true h .none

theorem texts_agrees (h : order items = order items') :
    (texts name missing nullable order).Agrees (.ofTexts items) (.ofTexts items') := by
  have hnormal : ∀ items, (texts name missing nullable order).normal (.ofTexts items) =
      .ofTexts (order items) := fun items => by
    simp [texts, Yaml.texts?_eq_some.mpr rfl]
  refine iff_of_true ?_ .none
  rw [hnormal, hnormal, h]
  exact Same.refl _

theorem partly_agrees (hkind : ∀ {value value'}, Same value value' → reads value = reads value')
    (h : reads value = true → reads value' = true → Same value value') :
    (partly name missing nullable reads).Agrees value value' := by
  have hne : reads value ≠ reads value' → ¬ Same value value' := fun hne hsame => hne (hkind hsame)
  unfold Agrees partly
  cases hv : reads value <;> cases hv' : reads value' <;>
    simp only [hv, hv', ne_eq, Bool.false_eq_true, Bool.true_eq_false, not_false_eq_true, forall_const,
      ↓reduceIte] at hne h ⊢
  · exact rel_some.symm
  · exact iff_of_false hne rel_some_none
  · exact iff_of_false hne fun hsome => nomatch rel_none.mp hsome
  · exact iff_of_true h .none

theorem inner_agrees {normal unread : Yaml → Yaml}
    (h : Same (normal value) (normal value') ↔ Same (unread value) (unread value')) :
    (inner name missing nullable normal unread).Agrees value value' := h.trans rel_some.symm

theorem record_agrees {s : Section} (hs : s.keys.Nodup) (h : ∀ f ∈ s, f.Agrees (f.value m) (f.value m')) :
    (record name missing nullable s).Agrees (.map m) (.map m') := inner_agrees (s.agrees hs h)

theorem records_agrees {s : Section} (hs : s.keys.Nodup)
    (h : List.Forall₂ (fun m m' => ∀ f ∈ s, f.Agrees (f.value m) (f.value m')) ms ms') :
    (records name missing nullable s).Agrees (.list (ms.map .map)) (.list (ms'.map .map)) := by
  refine inner_agrees ?_
  simp only [onItems, map_map, same_list, forall₂_map_left_iff, forall₂_map_right_iff]
  induction h with
  | nil => simp
  | cons hm _ ih =>
    rw [forall₂_cons, forall₂_cons, ih]
    exact and_congr_left fun _ => s.agrees hs hm

end

end Field

end Karajan
