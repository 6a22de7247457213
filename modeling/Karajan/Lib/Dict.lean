import Mathlib.Data.List.Nodup
import Mathlib.Algebra.Order.BigOperators.Group.List

/-!
# Insertion-ordered dictionaries

A finite map that remembers the order its keys were first written in. It is
both a mapping of the source language and a database table with its primary
key: writing an existing key keeps its place, a new key goes to the end, and
no key occurs twice because the type says so.
-/

namespace Karajan

open List

structure Dict (κ : Type u) (ν : Type v) where
  entries : List (κ × ν)
  nodup : (entries.map Prod.fst).Nodup

namespace Dict

-- Operations on the entries

section
variable [DecidableEq κ]

def lookup (k : κ) : List (κ × ν) → Option ν
  | [] => none
  | (k', v) :: rest => if k' = k then some v else lookup k rest

def write (k : κ) (v : ν) : List (κ × ν) → List (κ × ν)
  | [] => [(k, v)]
  | (k', v') :: rest => if k' = k then (k', v) :: rest else (k', v') :: write k v rest

theorem lookup_eq_some {l : List (κ × ν)} (hl : (l.map Prod.fst).Nodup) : lookup k l = some v ↔ (k, v) ∈ l := by
  induction l with
  | nil => simp [lookup]
  | cons e l ih =>
    obtain ⟨k', v'⟩ := e
    simp only [map_cons, nodup_cons, mem_map, Prod.exists, exists_and_right, exists_eq_right] at hl
    simp only [lookup, mem_cons, Prod.mk.injEq]
    split
    case isTrue h =>
      subst h
      constructor
      · intro hv; cases hv; simp
      · rintro (⟨-, rfl⟩ | hm)
        · rfl
        · exact absurd ⟨v, hm⟩ hl.1
    case isFalse h =>
      rw [ih hl.2]
      constructor
      · exact .inr
      · rintro (⟨rfl, -⟩ | hm)
        · exact absurd rfl h
        · exact hm

theorem lookup_eq_none {l : List (κ × ν)} : lookup k l = none ↔ k ∉ l.map Prod.fst := by
  induction l with
  | nil => simp [lookup]
  | cons e l ih =>
    simp only [lookup, map_cons, mem_cons, not_or]
    split
    case isTrue h => subst h; simp
    case isFalse h => rw [ih]; exact ⟨fun hn => ⟨fun e => h e.symm, hn⟩, And.right⟩

theorem lookup_append {l l' : List (κ × ν)} : lookup k (l ++ l') = (lookup k l).or (lookup k l') := by
  induction l with
  | nil => simp [lookup]
  | cons e l ih =>
    simp only [cons_append, lookup]
    split
    · rfl
    · exact ih

theorem lookup_flatMap [DecidableEq ι] (hl : (l.map Prod.fst).Nodup) {f : κ → ν → List (ι × μ)} :
    lookup (k, i) (l.flatMap fun e => (f e.1 e.2).map fun x => ((e.1, x.1), x.2)) =
      (lookup k l).bind fun v => lookup i (f k v) := by
  have hsame : ∀ l' : List (ι × μ), lookup (k, i) (l'.map fun x => ((k, x.1), x.2)) = lookup i l' := by
    intro l'
    induction l' with
    | nil => rfl
    | cons x l' ih => simp [lookup, ih]
  have hother : ∀ k' (l' : List (ι × μ)), k' ≠ k → lookup (k, i) (l'.map fun x => ((k', x.1), x.2)) = none := by
    intro k' l' hne
    induction l' with
    | nil => rfl
    | cons x l' ih => simp [lookup, hne, ih]
  induction l with
  | nil => rfl
  | cons e l ih =>
    obtain ⟨k', v⟩ := e
    simp only [map_cons, nodup_cons] at hl
    rw [flatMap_cons, lookup_append, ih hl.2]
    simp only [lookup]
    split
    case isTrue hk =>
      subst hk
      rw [hsame, lookup_eq_none.mpr hl.1]
      simp
    case isFalse hk => simp [hother k' _ hk]

theorem lookup_write {l : List (κ × ν)} : lookup k' (write k v l) = if k = k' then some v else lookup k' l := by
  induction l with
  | nil => simp [write, lookup]
  | cons e l ih =>
    simp only [write]
    split
    case isTrue h => subst h; simp only [lookup]; split <;> rfl
    case isFalse h =>
      simp only [lookup, ih]
      split
      case isTrue h' => subst h'; simp [Ne.symm h]
      · rfl

theorem keys_write {l : List (κ × ν)} : (write k v l).map Prod.fst =
      if k ∈ l.map Prod.fst then l.map Prod.fst else l.map Prod.fst ++ [k] := by
  induction l with
  | nil => simp [write]
  | cons e l ih =>
    simp only [write]
    split
    case isTrue h => subst h; simp
    case isFalse h =>
      simp only [map_cons, ih, mem_cons, Ne.symm h, false_or]
      split <;> simp

theorem nodup_write {l : List (κ × ν)} (hl : (l.map Prod.fst).Nodup) : ((write k v l).map Prod.fst).Nodup := by
  rw [keys_write]
  split
  · exact hl
  case isFalse h => exact List.nodup_append.mpr ⟨hl, by simp, by simpa using fun a v hm e => h (by
    subst e; exact List.mem_map.mpr ⟨_, hm, rfl⟩)⟩

theorem write_of_not_mem {l : List (κ × ν)} (h : k ∉ l.map Prod.fst) : write k v l = l ++ [(k, v)] := by
  induction l with
  | nil => rfl
  | cons e l ih =>
    simp only [map_cons, mem_cons, not_or] at h
    simp [write, Ne.symm h.1, ih h.2]

end

-- The dictionary

def empty : Dict κ ν := ⟨[], by simp⟩

def keys (d : Dict κ ν) : List κ := d.entries.map Prod.fst

def values (d : Dict κ ν) : List ν := d.entries.map Prod.snd

def filter (d : Dict κ ν) (p : κ → ν → Bool) : Dict κ ν := ⟨d.entries.filter fun e => p e.1 e.2,
    d.nodup.sublist (List.Sublist.map _ filter_sublist)⟩

def mapValues (d : Dict κ ν) (f : κ → ν → μ) : Dict κ μ :=
  ⟨d.entries.map fun e => (e.1, f e.1 e.2), by simpa [map_map, Function.comp_def] using d.nodup⟩

theorem ext_entries {d e : Dict κ ν} (h : d.entries = e.entries) : d = e := by
  cases e
  cases h
  rfl

section
variable [DecidableEq κ]

def get? (d : Dict κ ν) (k : κ) : Option ν := lookup k d.entries

def contains (d : Dict κ ν) (k : κ) : Bool := (d.get? k).isSome

/-- Write `k`: in its place where it is known, at the end where it is new. -/
def put (d : Dict κ ν) (k : κ) (v : ν) : Dict κ ν := ⟨write k v d.entries, nodup_write d.nodup⟩

def erase (d : Dict κ ν) (k : κ) : Dict κ ν := d.filter fun k' _ => k' ≠ k

def putNew (d : Dict κ ν) (k : κ) (v : ν) : Dict κ ν := if d.contains k then d else d.put k v

def modify (d : Dict κ ν) (k : κ) (f : ν → ν) : Dict κ ν := d.mapValues fun k' v => if k' = k then f v else v

def ofList : List (κ × ν) → Dict κ ν
  | l => l.foldl (fun d e => d.put e.1 e.2) empty

-- Lookup

variable {d : Dict κ ν}

theorem get?_eq_some : d.get? k = some v ↔ (k, v) ∈ d.entries := lookup_eq_some d.nodup

theorem get?_eq_none : d.get? k = none ↔ k ∉ d.keys := lookup_eq_none

theorem mem_keys : k ∈ d.keys ↔ ∃ v, d.get? k = some v := by
  simp [keys, get?_eq_some]

theorem mem_values : v ∈ d.values ↔ ∃ k, d.get? k = some v := by
  simp [values, get?_eq_some]

theorem contains_iff : d.contains k = true ↔ k ∈ d.keys := by
  rw [contains, Option.isSome_iff_exists, mem_keys]

theorem contains_eq_false : d.contains k = false ↔ d.get? k = none := by simp [contains]

@[simp] theorem get?_empty : (empty : Dict κ ν).get? k = none := rfl

theorem get?_put : (d.put k v).get? k' = if k = k' then some v else d.get? k' := lookup_write

@[simp] theorem get?_put_self : (d.put k v).get? k = some v := by simp [get?_put]

theorem get?_put_of_ne (h : k ≠ k') : (d.put k v).get? k' = d.get? k' := by simp [get?_put, h]

theorem get?_put_new (hnone : d.get? k = none) (h : d.get? k' = some w) :
    (d.put k v).get? k' = some w := by
  have hne : k ≠ k' := by
    rintro rfl
    cases hnone.symm.trans h
  rw [get?_put_of_ne hne, h]

/-- An entry that is found after a write is the one that was written, or was there. -/
theorem of_put (h : (d.put k v).get? k' = some w) : k = k' ∧ v = w ∨ k ≠ k' ∧ d.get? k' = some w := by
  rw [get?_put] at h
  split at h
  case isTrue hk => exact .inl ⟨hk, Option.some.inj h⟩
  case isFalse hk => exact .inr ⟨hk, h⟩

theorem keys_put : (d.put k v).keys = if k ∈ d.keys then d.keys else d.keys ++ [k] := keys_write

theorem mem_keys_put : k' ∈ (d.put k v).keys ↔ k' = k ∨ k' ∈ d.keys := by
  rw [keys_put]
  split
  case isTrue h => constructor
                   · exact .inr
                   · rintro (rfl | h')
                     · exact h
                     · exact h'
  case isFalse h => simp [or_comm]

theorem entries_put_new (h : d.get? k = none) : (d.put k v).entries = d.entries ++ [(k, v)] :=
  write_of_not_mem (get?_eq_none.mp h)

theorem get?_putNew : (d.putNew k v).get? k' = if k = k' ∧ d.get? k = none then some v else d.get? k' := by
  unfold putNew contains
  cases hk : d.get? k with
  | none => simp [get?_put]
  | some w => simp

omit [DecidableEq κ] in
theorem mem_filter : (k, v) ∈ (d.filter p).entries ↔ (k, v) ∈ d.entries ∧ p k v = true := by
  simp [filter]

theorem get?_filter : (d.filter p).get? k = some v ↔ d.get? k = some v ∧ p k v = true := by
  rw [get?_eq_some, mem_filter, get?_eq_some]

theorem length_filter_le_one
    (h : ∀ k v k' v', d.get? k = some v → d.get? k' = some v' → p k v = true → p k' v' = true →
      k = k') : (d.filter p).entries.length ≤ 1 := by
  have hkeys := (d.filter p).nodup
  have hall : ∀ e ∈ (d.filter p).entries, ∀ e' ∈ (d.filter p).entries, e.1 = e'.1 := by
    intro e he e' he'
    obtain ⟨hm, hp⟩ := mem_filter.mp he
    obtain ⟨hm', hp'⟩ := mem_filter.mp he'
    exact h _ _ _ _ (get?_eq_some.mpr hm) (get?_eq_some.mpr hm') hp hp'
  match hl : (d.filter p).entries with
  | [] => simp
  | [_] => simp
  | e :: e' :: rest =>
    rw [hl] at hkeys hall
    have heq : e.1 = e'.1 := hall e (by simp) e' (by simp)
    simp [heq] at hkeys

theorem entries_filter_key : d.entries.filter (fun e => e.1 = k) = ((d.get? k).map fun v => (k, v)).toList := by
  have hlist : ∀ l : List (κ × ν), (l.map Prod.fst).Nodup →
      l.filter (fun e => e.1 = k) = ((lookup k l).map fun v => (k, v)).toList := by
    intro l hl
    induction l with
    | nil => rfl
    | cons e l ih =>
      obtain ⟨k', v⟩ := e
      simp only [map_cons, nodup_cons] at hl
      rw [filter_cons, ih hl.2, lookup]
      by_cases hk : k' = k
      · subst hk
        simp [lookup_eq_none.mpr hl.1]
      · simp [hk]
  exact hlist d.entries d.nodup

theorem get?_erase : (d.erase k).get? k' = if k' = k then none else d.get? k' := by
  cases h : (d.erase k).get? k' with
  | none =>
    split
    · rfl
    case isFalse hne =>
      cases hd : d.get? k' with
      | none => rfl
      | some v =>
        have : (d.erase k).get? k' = some v := get?_filter.mpr ⟨hd, by simpa using hne⟩
        rw [h] at this; cases this
  | some v =>
    obtain ⟨hd, hne⟩ := get?_filter.mp h
    simp only [ne_eq, decide_not, Bool.not_eq_eq_eq_not, Bool.not_true, decide_eq_false_iff_not] at hne
    simp [hne, hd]

theorem get?_mapValues {f : κ → ν → μ} : (d.mapValues f).get? k = (d.get? k).map (f k) := by
  cases h : d.get? k with
  | none =>
    simpa [get?_eq_none, keys, mapValues, map_map, Function.comp_def] using h
  | some v =>
    rw [get?_eq_some] at h
    simp only [Option.map_some, get?_eq_some, mapValues, mem_map, Prod.mk.injEq]
    exact ⟨(k, v), h, rfl, rfl⟩

theorem get?_modify : (d.modify k f).get? k' = if k' = k then (d.get? k').map f else d.get? k' := by
  rw [modify, get?_mapValues]
  split
  case isTrue h => simp [h]
  · simp

theorem mapValues_congr {f g : κ → ν → μ} (h : ∀ k v, d.get? k = some v → f k v = g k v) :
    d.mapValues f = d.mapValues g := by
  refine ext_entries (map_congr_left fun e he => ?_)
  rw [h e.1 e.2 (get?_eq_some.mpr he)]

theorem write_eq_map {l : List (κ × ν)} (hl : (l.map Prod.fst).Nodup) (h : (k, v) ∈ l) {f : ν → ν} :
    write k (f v) l = l.map fun e => (e.1, if e.1 = k then f e.2 else e.2) := by
  induction l with
  | nil => cases h
  | cons e l ih =>
    obtain ⟨k', v'⟩ := e
    simp only [map_cons, nodup_cons] at hl
    simp only [write, map_cons]
    rcases List.mem_cons.mp h with heq | hm
    · cases heq
      have hrest : l.map (fun e => (e.1, if e.1 = k then f e.2 else e.2)) = l.map id := by
        refine map_congr_left fun e he => ?_
        have hne : e.1 ≠ k := by rintro rfl; exact hl.1 (mem_map_of_mem he)
        simp [hne]
      simp [hrest]
    · have hne : k' ≠ k := by rintro rfl; exact hl.1 (mem_map_of_mem hm)
      simp only [if_neg hne, ih hl.2 hm]

theorem put_eq_modify {f : ν → ν} (h : d.get? k = some v) : d.put k (f v) = d.modify k f :=
  ext_entries (write_eq_map d.nodup (get?_eq_some.mp h))

theorem foldl_put_eq_mapValues {l : List (κ × ν)} {f : ν → ν} (hl : (l.map Prod.fst).Nodup)
    (h : ∀ e ∈ l, d.get? e.1 = some e.2) : l.foldl (fun d e => d.put e.1 (f e.2)) d =
      d.mapValues fun k v => if k ∈ l.map Prod.fst then f v else v := by
  induction l generalizing d with
  | nil => exact ext_entries (by simp [mapValues])
  | cons e l ih =>
    obtain ⟨k, v⟩ := e
    simp only [map_cons, nodup_cons] at hl
    have hrest : ∀ e ∈ l, (d.modify k f).get? e.1 = some e.2 := by
      intro e he
      have hne : e.1 ≠ k := by rintro rfl; exact hl.1 (mem_map_of_mem he)
      rw [get?_modify, if_neg hne, h e (mem_cons_of_mem _ he)]
    rw [foldl_cons, put_eq_modify (h (k, v) (by simp)), ih hl.2 hrest]
    refine ext_entries ?_
    simp only [modify, mapValues, map_map, map_cons, mem_cons]
    refine map_congr_left fun e _ => ?_
    by_cases hk : e.1 = k
    · simp [hk, hl.1]
    · by_cases hm : e.1 ∈ l.map Prod.fst <;> simp [hk, hm]

theorem contains_of_get? (h : d.get? k = some v) : d.contains k = true := by simp [contains, h]

theorem lookup_perm {l l' : List (κ × ν)} (hl : (l.map Prod.fst).Nodup) (h : l'.Perm l) :
    lookup k l' = lookup k l := by
  have hl' : (l'.map Prod.fst).Nodup := (h.map Prod.fst).nodup_iff.mpr hl
  cases hk : lookup k l with
  | some v => exact (lookup_eq_some hl').mpr (h.mem_iff.mpr ((lookup_eq_some hl).mp hk))
  | none =>
    rw [lookup_eq_none] at hk ⊢
    exact fun hm => hk ((h.map Prod.fst).mem_iff.mp hm)

theorem mem_keys_foldl_put {l : List (κ × ν)} :
    k ∈ (l.foldl (fun d e => d.put e.1 e.2) d).keys ↔ k ∈ d.keys ∨ k ∈ l.map Prod.fst := by
  induction l generalizing d with
  | nil => simp
  | cons e l ih =>
    rw [foldl_cons, ih, mem_keys_put, map_cons, mem_cons]
    tauto

theorem mem_keys_ofList {l : List (κ × ν)} : k ∈ (ofList l).keys ↔ k ∈ l.map Prod.fst := by
  rw [ofList, mem_keys_foldl_put]
  simp [empty, keys]

theorem mem_of_get?_ofList {l : List (κ × ν)} (h : (ofList l).get? k = some v) : (k, v) ∈ l := by
  suffices hput : ∀ d : Dict κ ν, (l.foldl (fun d e => d.put e.1 e.2) d).get? k = some v →
      (k, v) ∈ l ∨ d.get? k = some v by
    rcases hput empty h with hm | hnone
    · exact hm
    · cases hnone
  clear h
  induction l with
  | nil => exact fun d h => .inr h
  | cons e l ih =>
    intro d h
    rcases ih _ h with hm | hd
    · exact .inl (mem_cons_of_mem _ hm)
    · rw [get?_put] at hd
      split at hd
      case isTrue hk => cases hd; subst hk; exact .inl (mem_cons_self ..)
      · exact .inr hd

theorem get?_foldl_put {f : κ → μ → ν} (hl : (l.map Prod.fst).Nodup) :
    (l.foldl (fun d e => d.put e.1 (f e.1 e.2)) d).get? k = match lookup k l with
      | some v => some (f k v)
      | none => d.get? k := by
  induction l generalizing d with
  | nil => rfl
  | cons e l ih =>
    obtain ⟨k', v'⟩ := e
    simp only [map_cons, nodup_cons] at hl
    rw [foldl_cons, ih hl.2]
    simp only [lookup]
    split
    case h_1 v hv =>
      have hne : k' ≠ k := by
        rintro rfl
        have hm := (lookup_eq_some hl.2).mp hv
        exact hl.1 (mem_map_of_mem (f := Prod.fst) hm)
      simp [hne, hv]
    case h_2 hnone =>
      by_cases h : k' = k
      · subst h; simp
      · simp [h, hnone, get?_put_of_ne h]

theorem get?_ofList {l : List (κ × ν)} (hl : (l.map Prod.fst).Nodup) : (ofList l).get? k = lookup k l := by
  rw [ofList, get?_foldl_put (f := fun _ v => v) hl]
  cases lookup k l <;> rfl

theorem entries_ofList {l : List (κ × ν)} (hl : (l.map Prod.fst).Nodup) : (ofList l).entries = l := by
  suffices hput : ∀ d : Dict κ ν, (∀ e ∈ l, e.1 ∉ d.keys) →
      (l.foldl (fun d e => d.put e.1 e.2) d).entries = d.entries ++ l by
    exact hput empty (by simp [empty, keys])
  induction l with
  | nil => exact fun d _ => (append_nil _).symm
  | cons e l ih =>
    intro d hnew
    simp only [map_cons, nodup_cons] at hl
    have he : e.1 ∉ d.keys := hnew e (by simp)
    rw [foldl_cons, ih hl.2, entries_put_new (get?_eq_none.mpr he), append_assoc]
    · rfl
    · intro e' he' hkey
      rcases mem_keys_put.mp hkey with heq | hkey
      · exact hl.1 (heq ▸ mem_map_of_mem he')
      · exact hnew e' (mem_cons_of_mem _ he') hkey

theorem get?_ofList_map {l : List (κ × ν)} {f : ν → μ} :
    (ofList (l.map fun e => (e.1, f e.2))).get? k = ((ofList l).get? k).map f := by
  suffices hput : ∀ (d : Dict κ ν) (d' : Dict κ μ), (∀ k, d'.get? k = (d.get? k).map f) →
      ((l.map fun e => (e.1, f e.2)).foldl (fun d e => d.put e.1 e.2) d').get? k =
        ((l.foldl (fun d e => d.put e.1 e.2) d).get? k).map f from hput empty empty fun _ => rfl
  induction l with
  | nil => exact fun d d' h => h k
  | cons e l ih =>
    intro d d' h
    refine ih _ _ fun k' => ?_
    rw [get?_put, get?_put]
    split
    · rfl
    · exact h k'

theorem get?_foldl_putNew : (l.foldl (fun d e => d.putNew e.1 e.2) d).get? k = match d.get? k with
      | some v => some v
      | none => lookup k l := by
  induction l generalizing d with
  | nil => cases hd : d.get? k <;> simp [hd, lookup]
  | cons e l ih =>
    rw [foldl_cons, ih, get?_putNew]
    by_cases hk : e.1 = k
    · cases hd : d.get? k <;> simp [hk, hd, lookup]
    · cases d.get? k <;> simp [hk, lookup]

end

end Dict

-- Loops

theorem foldl_marks {I : β → Prop} {l : List α} (ha : a ∈ l)
    (mark : ∀ b, I (f b a)) (keep : ∀ b c, I b → I (f b c)) (b : β) : I (l.foldl f b) := by
  have hkeep : ∀ l b, I b → I (foldl f b l) := by
    intro l
    induction l with
    | nil => exact fun b hb => hb
    | cons c l ih => exact fun b hb => ih _ (keep b c hb)
  induction l generalizing b with
  | nil => cases ha
  | cons c l ih =>
    rcases List.mem_cons.mp ha with rfl | ha
    · exact hkeep l _ (mark b)
    · exact ih ha _

end Karajan

-- Tables that only grow

namespace Karajan.Dict

variable [DecidableEq κ] {R : ν → ν → Prop} {d d' d'' : Dict κ ν}

def Grows (R : ν → ν → Prop) (d d' : Dict κ ν) : Prop :=
  ∀ k v, d.get? k = some v → ∃ v', d'.get? k = some v' ∧ R v v'

namespace Grows

theorem refl (hR : ∀ v, R v v) (d : Dict κ ν) : Grows R d d := fun _ v h => ⟨v, h, hR v⟩

theorem trans (hR : ∀ u v w, R u v → R v w → R u w) (h : Grows R d d') (h' : Grows R d' d'') : Grows R d d'' := by
  intro k u hu
  obtain ⟨v, hv, huv⟩ := h k u hu
  obtain ⟨w, hw, hvw⟩ := h' k v hv
  exact ⟨w, hw, hR u v w huv hvw⟩

theorem mono (hRS : ∀ u v, R u v → S u v) (h : Grows R d d') : Grows S d d' := by
  intro k u hu
  obtain ⟨v, hv, huv⟩ := h k u hu
  exact ⟨v, hv, hRS u v huv⟩

theorem put (hR : ∀ v, R v v) (hv : ∀ u, d.get? k = some u → R u v) : Grows R d (d.put k v) := by
  intro k' u hu
  by_cases hk : k = k'
  · subst hk
    exact ⟨v, get?_put_self, hv u hu⟩
  · exact ⟨u, by rw [get?_put_of_ne hk, hu], hR u⟩

theorem put_new (hR : ∀ v, R v v) (hk : d.get? k = none) : Grows R d (d.put k v) := by
  refine put hR fun u hu => ?_
  simp [hk] at hu

theorem modify (hR : ∀ v, R v v) (hf : ∀ v, d.get? k = some v → R v (f v)) : Grows R d (d.modify k f) := by
  intro k' u hu
  rw [get?_modify]
  by_cases hk : k' = k
  · subst hk
    exact ⟨f u, by simp [hu], hf u hu⟩
  · exact ⟨u, by rw [if_neg hk, hu], hR u⟩

end Grows

end Karajan.Dict

-- Totals over a dictionary

namespace Karajan.Dict

section
variable [AddCommMonoid M]

def total (d : Dict κ ν) (f : κ → ν → M) : M := (d.entries.map fun e => f e.1 e.2).sum

theorem total_mapValues {d : Dict κ ν} {f : κ → μ → M} :
    (d.mapValues g).total f = d.total fun k v => f k (g k v) := by
  simp [total, mapValues, Function.comp_def]

theorem sum_filter_values {d : Dict κ ν} {p : ν → Bool} {f : ν → M} :
    ((d.values.filter p).map f).sum = d.total fun _ v => if p v then f v else 0 := by
  rw [total, values]
  induction d.entries with
  | nil => rfl
  | cons e l ih =>
    simp only [List.map_cons, List.filter_cons, List.sum_cons]
    split
    · simp [ih]
    · simp [ih]

theorem total_add {d : Dict κ ν} {f g : κ → ν → M} : (d.total fun k v => f k v + g k v) = d.total f + d.total g :=
  List.sum_map_add

end

section
variable [DecidableEq κ] [AddCommMonoid M] {d : Dict κ ν} {f g : κ → ν → M}

theorem sum_write (hl : (l.map Prod.fst).Nodup) (h : (k, old) ∈ l) :
    ((write k v l).map fun e => f e.1 e.2).sum + f k old = (l.map fun e => f e.1 e.2).sum + f k v := by
  induction l with
  | nil => cases h
  | cons e l ih =>
    obtain ⟨k', v'⟩ := e
    simp only [List.map_cons, List.nodup_cons] at hl
    by_cases hk : k' = k
    · subst hk
      have hv : v' = old := by
        rcases List.mem_cons.mp h with heq | hm
        · cases heq; rfl
        · exact absurd (List.mem_map_of_mem hm) hl.1
      subst hv
      simp only [write, if_true, List.map_cons, List.sum_cons]
      rw [add_right_comm, add_comm (f k' v), add_right_comm]
    · have hm : (k, old) ∈ l := by
        rcases List.mem_cons.mp h with heq | hm
        · cases heq; exact absurd rfl hk
        · exact hm
      simp only [write, if_neg hk, List.map_cons, List.sum_cons]
      rw [add_assoc, ih hl.2 hm, add_assoc]

theorem total_put (h : d.get? k = some old) : (d.put k v).total f + f k old = d.total f + f k v :=
  sum_write d.nodup (get?_eq_some.mp h)

theorem total_put_new (h : d.get? k = none) : (d.put k v).total f = d.total f + f k v := by
  simp [total, entries_put_new h]

theorem total_congr (h : ∀ k v, d.get? k = some v → f k v = g k v) : d.total f = d.total g := by
  refine congrArg List.sum (List.map_congr_left fun e he => ?_)
  exact h e.1 e.2 (get?_eq_some.mpr he)

theorem total_zero (h : ∀ k v, d.get? k = some v → f k v = 0) : d.total f = 0 := by
  rw [total_congr (g := fun _ _ => 0) h]
  simp [total]

theorem sum_single {l : List (κ × ν)} {f : ν → M} (hl : (l.map Prod.fst).Nodup) :
    (l.map fun e => if e.1 = k then f e.2 else 0).sum = ((lookup k l).map f).getD 0 := by
  induction l with
  | nil => rfl
  | cons e l ih =>
    obtain ⟨k', v'⟩ := e
    simp only [List.map_cons, List.nodup_cons] at hl
    simp only [List.map_cons, List.sum_cons, ih hl.2, lookup]
    by_cases hk : k' = k
    · subst hk
      rw [if_pos rfl, if_pos rfl, lookup_eq_none.mpr hl.1]
      simp
    · rw [if_neg hk, if_neg hk, zero_add]

theorem total_single {f : ν → M} : (d.total fun k' v => if k' = k then f v else 0) = ((d.get? k).map f).getD 0 :=
  sum_single d.nodup

end

section
variable [DecidableEq κ] [AddCommMonoid M] [PartialOrder M] [IsOrderedAddMonoid M]
  {d : Dict κ ν} {f g : κ → ν → M}

theorem total_mono (h : ∀ k v, d.get? k = some v → f k v ≤ g k v) : d.total f ≤ d.total g :=
  List.sum_le_sum fun e he => h e.1 e.2 (get?_eq_some.mpr he)

end

end Karajan.Dict
