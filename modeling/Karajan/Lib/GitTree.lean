import Karajan.Lib.Dict
import Karajan.Lib.Listing
import Mathlib.Data.Option.Basic
import Mathlib.Data.String.Basic

/-!
# Tree objects

A tree object lists the entries of one directory in the order of their keys,
each with the object it stands for. A listing of paths is a tree: the rows of
one directory are its files and the directories below it, each of which has
the rows that go on below its name.
-/

namespace Karajan.GitTree

open List Dict
open Listing (sortedSet)

abbrev Bytes := List UInt8

-- Texts as bytes

def encode (text : String) : Bytes := text.toUTF8.data.toList

theorem encode_append : encode (a ++ b) = encode a ++ encode b := by simp [encode]

theorem encode_injective : Function.Injective encode := by
  intro a b h
  simp only [encode, String.toUTF8_eq_toByteArray, Array.toList_inj] at h
  exact String.toByteArray_inj.mp (ByteArray.ext h)

def hexDigit? (c : Char) : Option UInt8 :=
  if '0' ≤ c ∧ c ≤ '9' then some (c.toNat - '0'.toNat).toUInt8
  else if 'a' ≤ c ∧ c ≤ 'f' then some (c.toNat - 'a'.toNat + 10).toUInt8
  else if 'A' ≤ c ∧ c ≤ 'F' then some (c.toNat - 'A'.toNat + 10).toUInt8
  else none

/-- The bytes that pairs of hexadecimal digits stand for; blanks may stand between pairs. -/
def fromhexDigits : List Char → Option Bytes
  | [] => some []
  | [c] => if c.isWhitespace then some [] else none
  | c :: d :: rest =>
    if c.isWhitespace then fromhexDigits (d :: rest)
    else do
      let high ← hexDigit? c
      let low ← hexDigit? d
      let bytes ← fromhexDigits rest
      return (16 * high + low) :: bytes

def fromhex (text : String) : Option Bytes := fromhexDigits text.toList

-- Objects

def object (kind : String) (body : Bytes) : Bytes :=
  encode kind ++ encode " " ++ encode (toString body.length) ++ [0] ++ body

structure Row where
  (mode name : Bytes)
  oid : String
  isTree : Bool

/-- Rows are ordered by their names, those of directories with a separator after them. -/
def Row.key (row : Row) : Bytes := if row.isTree then row.name ++ encode "/" else row.name

def Row.bytes (row : Row) : Option Bytes :=
  (fromhex row.oid).map fun oid => row.mode ++ encode " " ++ row.name ++ [0] ++ oid

section
variable {l l' : List α}

def byKey (key : α → Bytes) (l : List α) : List α :=
  l.insertionSort fun a b => (key a).map UInt8.toNat ≤ (key b).map UInt8.toNat

theorem byKey_perm (key : α → Bytes) (l : List α) : (byKey key l).Perm l := perm_insertionSort _ _

theorem toNat_injective : Function.Injective (map UInt8.toNat) :=
  List.map_injective_iff.mpr fun _ _ h => UInt8.toNat_inj.mp h

theorem byKey_congr (h : l.Perm l') (hkeys : (l.map key).Nodup) : byKey key l = byKey key l' := by
  let r : α → α → Prop := fun a b => (key a).map UInt8.toNat ≤ (key b).map UInt8.toNat
  have hperm : (byKey key l).Perm (byKey key l') := (byKey_perm _ _).trans (h.trans (byKey_perm _ _).symm)
  refine hperm.eq_of_pairwise ?_ (pairwise_insertionSort r l) (pairwise_insertionSort r l')
  intro a b ha hb hab hba
  have hkey : key a = key b := toNat_injective (le_antisymm hab hba)
  have hma : a ∈ l := (byKey_perm _ _).mem_iff.mp ha
  have hmb : b ∈ l := h.mem_iff.mpr ((byKey_perm _ _).mem_iff.mp hb)
  exact inj_on_of_nodup_map hkeys hma hmb hkey

theorem byKey_map {f : α → β} {key' : β → Bytes} (h : ∀ a ∈ l, key' (f a) = key a) :
    byKey key' (l.map f) = (byKey key l).map f := by
  refine (map_insertionSort _ _ f l fun a ha b hb => ?_).symm
  rw [h a ha, h b hb]

end

def treeBody (rows : List Row) : Option Bytes := ((byKey Row.key rows).mapM Row.bytes).map flatten

-- Listings of paths

abbrev Paths (ν : Type u) := List (List String × ν)

def file? : List String × ν → Option (String × ν)
  | ([name], v) => some (name, v)
  | _ => none

def directory? : List String × ν → Option String
  | (name :: _ :: _, _) => some name
  | _ => none

def below? (directory : String) : List String × ν → Option (List String × ν)
  | (name :: part :: rest, v) => if name = directory then some (part :: rest, v) else none
  | _ => none

variable {rows : Paths ν}

def below (directory : String) (rows : Paths ν) : Paths ν := rows.filterMap (below? directory)

def depth : Paths ν → Nat
  | [] => 0
  | (path, _) :: rows => max path.length (depth rows)

theorem below?_eq_some : below? directory row = some row' ↔
    row = (directory :: row'.1, row'.2) ∧ row'.1 ≠ [] := by
  obtain ⟨path, v⟩ := row
  obtain ⟨path', v'⟩ := row'
  constructor
  · intro h
    match path with
    | [] => cases h
    | [_] => cases h
    | name :: part :: rest =>
      simp only [below?, Option.ite_none_right_eq_some, Option.some.injEq, Prod.mk.injEq] at h
      obtain ⟨rfl, rfl, rfl⟩ := h
      simp
  · rintro ⟨h, hpath⟩
    obtain ⟨part, rest, rfl⟩ := exists_cons_of_ne_nil hpath
    cases h
    simp [below?]

theorem mem_below : row ∈ below directory rows ↔ (directory :: row.1, row.2) ∈ rows ∧ row.1 ≠ [] := by
  simp only [below, mem_filterMap, below?_eq_some]
  constructor
  · rintro ⟨row', hrow', rfl, hpath⟩
    exact ⟨hrow', hpath⟩
  · rintro ⟨hrow, hpath⟩
    exact ⟨_, hrow, rfl, hpath⟩

theorem nodup_below (h : (rows.map Prod.fst).Nodup) : ((below directory rows).map Prod.fst).Nodup := by
  have hcons : ((below directory rows).map fun row => directory :: row.1).Sublist (rows.map Prod.fst) := by
    induction rows with
    | nil => exact List.Sublist.slnil
    | cons r rows ih =>
      have ih := ih (List.nodup_cons.mp h).2
      cases hr : below? directory r with
      | none =>
        simp only [below, filterMap_cons_none hr]
        exact ih.cons _
      | some r' =>
        obtain ⟨rfl, -⟩ := below?_eq_some.mp hr
        simp only [below, filterMap_cons_some hr, map_cons]
        exact ih.cons_cons _
  have hnodup : (((below directory rows).map Prod.fst).map (directory :: ·)).Nodup := by
    simpa [map_map, Function.comp_def] using h.sublist hcons
  exact hnodup.of_map _

theorem file?_eq_some : file? row = some (name, v) ↔ row = ([name], v) := by
  obtain ⟨path, v'⟩ := row
  match path with
  | [] => simp [file?]
  | [_] => simp [file?]
  | _ :: _ :: _ => simp [file?]

theorem directory?_eq_some : directory? row = some name ↔ ∃ part rest, row.1 = name :: part :: rest := by
  obtain ⟨path, v⟩ := row
  match path with
  | [] => simp [directory?]
  | [_] => simp [directory?]
  | _ :: _ :: _ => simp [directory?]

theorem nodup_files (h : (rows.map Prod.fst).Nodup) : ((rows.filterMap file?).map Prod.fst).Nodup := by
  have hone : ((rows.filterMap file?).map fun f => [f.1]).Sublist (rows.map Prod.fst) := by
    induction rows with
    | nil => exact List.Sublist.slnil
    | cons r rows ih =>
      have ih := ih (List.nodup_cons.mp h).2
      cases hr : file? r with
      | none =>
        rw [filterMap_cons_none hr]
        exact ih.cons _
      | some f =>
        cases file?_eq_some.mp hr
        exact ih.cons_cons _
  have hnodup : (((rows.filterMap file?).map Prod.fst).map ([·])).Nodup := by
    simpa [map_map, Function.comp_def] using h.sublist hone
  exact hnodup.of_map _

-- Two ways to the id of a tree

def treeMode : Bytes := encode "40000"

variable {mode : ν → Bytes} {oid : ν → String}

def blobRow (mode : ν → Bytes) (oid : ν → String) (f : String × ν) : Row :=
  ⟨mode f.2, encode f.1, oid f.2, false⟩

def treeRow (name id : String) : Row := ⟨treeMode, encode name, id, true⟩

/-- The id of a tree that is made directory after directory, each after those below it. -/
def made (make : List Row → Option String) (mode : ν → Bytes) (oid : ν → String) : Nat → Paths ν → Option String
  | 0, _ => none
  | n + 1, rows => do
    let directories ← (sortedSet (rows.filterMap directory?)).mapM fun name =>
      (made make mode oid n (below name rows)).map (treeRow name)
    make ((rows.filterMap file?).map (blobRow mode oid) ++ directories)

/-- An entry of a directory: its mode and name, and its object, which a directory is yet without. -/
structure Entry where
  mode : Bytes
  (name oid : String)

/-- What a row says of the first directory: a file in it, or one more directory. -/
def entryOf (mode : ν → Bytes) (oid : ν → String) : List String × ν → Option (Bytes × Entry)
  | ([], _) => none
  | ([name], v) => some (encode name, ⟨mode v, name, oid v⟩)
  | (name :: _ :: _, _) => some (encode name ++ encode "/", ⟨treeMode, name, ""⟩)

def hashed (id : Bytes → String) (mode : ν → Bytes) (oid : ν → String) : Nat → Paths ν → Option String
  | 0, _ => none
  | n + 1, rows => do
    let entries := ofList (rows.filterMap (entryOf mode oid))
    let parts ← (byKey Prod.fst entries.entries).mapM fun e =>
      (if e.2.oid ≠ "" then some e.2.oid else hashed id mode oid n (below e.2.name rows)).bind
        fun oid => Row.bytes ⟨e.2.mode, encode e.2.name, oid, false⟩
    return id (object "tree" parts.flatten)

-- The two ways agree

theorem mapM_eq_some {f : α → Option β} {l : List α} : l.mapM f = some bs ↔ l.map f = bs.map some := by
  induction l generalizing bs with
  | nil => cases bs <;> simp
  | cons a l ih =>
    cases hf : f a with
    | none => cases bs <;> simp [hf]
    | some b =>
      cases bs with
      | nil => cases hl : l.mapM f <;> simp [hf, hl]
      | cons c bs =>
        cases hl : l.mapM f <;> simp_all

theorem mapM_congr {f g : α → Option β} {l : List α} (h : ∀ a ∈ l, f a = g a) : l.mapM f = l.mapM g := by
  induction l with
  | nil => rfl
  | cons a l ih => simp [h a (by simp), ih fun b hb => h b (mem_cons_of_mem _ hb)]

theorem mem_entries (h : e ∈ (ofList (rows.filterMap (entryOf mode oid))).entries) :
    ∃ row ∈ rows, entryOf mode oid row = some e := by
  have hget := get?_eq_some.mpr (show (e.1, e.2) ∈ _ from h)
  simpa using mem_of_get?_ofList hget

/-- Names that no separator is in, and paths that are each listed once. -/
structure Listed (rows : Paths ν) : Prop where
  nodup : (rows.map Prod.fst).Nodup
  parts : ∀ row ∈ rows, ∀ part ∈ row.1, '/' ∉ part.toList

theorem Listed.below (h : Listed rows) : Listed (below directory rows) where
  nodup := nodup_below h.nodup
  parts := by
    intro row hrow part hpart
    exact h.parts _ (mem_below.mp hrow).1 part (mem_cons_of_mem _ hpart)

theorem encode_separated (h : '/' ∉ a.toList) : encode a ≠ encode b ++ encode "/" := by
  rw [← encode_append]
  intro heq
  refine h ?_
  rw [encode_injective heq]
  simp

theorem separated_injective (h : encode a ++ encode "/" = encode b ++ encode "/") : a = b :=
  encode_injective (append_cancel_right h)

theorem Listed.functional (h : Listed rows) (hrow : row ∈ rows) (hrow' : row' ∈ rows)
    (he : entryOf mode oid row = some (key, e)) (he' : entryOf mode oid row' = some (key, e')) : e = e' := by
  have hparts := h.parts row hrow
  have hparts' := h.parts row' hrow'
  obtain ⟨path, v⟩ := row
  obtain ⟨path', v'⟩ := row'
  match path, path' with
  | [], _ => cases he
  | _, [] => cases he'
  | [name], [name'] =>
    simp [entryOf] at he he'
    cases encode_injective (he.1.trans he'.1.symm)
    cases inj_on_of_nodup_map h.nodup hrow hrow' rfl
    exact he.2.symm.trans he'.2
  | [name], name' :: _ :: _ =>
    simp only [entryOf, Option.some.injEq, Prod.mk.injEq] at he he'
    exact absurd (he.1.trans he'.1.symm) (encode_separated (hparts name (by simp)))
  | name :: _ :: _, [name'] =>
    simp only [entryOf, Option.some.injEq, Prod.mk.injEq] at he he'
    exact absurd (he'.1.trans he.1.symm) (encode_separated (hparts' name' (by simp)))
  | name :: _ :: _, name' :: _ :: _ =>
    simp [entryOf] at he he'
    cases separated_injective (he.1.trans he'.1.symm)
    exact he.2.symm.trans he'.2

theorem Listed.mem_entries (h : Listed rows) : e ∈ (ofList (rows.filterMap (entryOf mode oid))).entries ↔
      ∃ row ∈ rows, entryOf mode oid row = some e := by
  refine ⟨GitTree.mem_entries, ?_⟩
  rintro ⟨row, hrow, he⟩
  obtain ⟨key, e⟩ := e
  have hkey : key ∈ (ofList (rows.filterMap (entryOf mode oid))).keys := by
    rw [mem_keys_ofList, mem_map]
    exact ⟨_, List.mem_filterMap.mpr ⟨row, hrow, he⟩, rfl⟩
  obtain ⟨e', hget⟩ := Dict.mem_keys.mp hkey
  have hmem := get?_eq_some.mp hget
  obtain ⟨row', hrow', he'⟩ := GitTree.mem_entries hmem
  rwa [h.functional hrow hrow' he he']

/-- The row an entry is, where the directories have their objects. -/
def Entry.resolved (objects : String → String) (e : Bytes × Entry) : Row :=
  if e.2.oid ≠ "" then ⟨e.2.mode, encode e.2.name, e.2.oid, false⟩
  else treeRow e.2.name (objects e.2.name)

open Entry (resolved)

theorem Entry.resolved_key (h : entryOf mode oid row = some e)
    (hoid : ∀ name v, row = ([name], v) → oid v ≠ "") : (resolved objects e).key = e.1 := by
  obtain ⟨path, v⟩ := row
  match path with
  | [] => cases h
  | [name] =>
    cases h
    simp [resolved, Row.key, hoid name v rfl]
  | name :: _ :: _ =>
    cases h
    simp [resolved, Row.key, treeRow]

section
section
variable (hoid : ∀ row ∈ rows, ∀ name v, row = ([name], v) → oid v ≠ "")
include hoid

theorem resolved_key (he : e ∈ (ofList (rows.filterMap (entryOf mode oid))).entries) :
    (resolved objects e).key = e.1 := by
  obtain ⟨row, hrow, hentry⟩ := mem_entries he
  exact Entry.resolved_key hentry (hoid row hrow)

theorem nodup_resolved : (((ofList (rows.filterMap (entryOf mode oid))).entries.map (resolved objects)).map
      Row.key).Nodup := by
  have hsame : ((ofList (rows.filterMap (entryOf mode oid))).entries.map
      (resolved objects)).map Row.key = (ofList (rows.filterMap (entryOf mode oid))).entries.map Prod.fst := by
    rw [map_map]
    exact map_congr_left fun e he => resolved_key hoid he
  rw [hsame]
  exact nodup _

end

/-- The rows of the first directory: those of its files, and those of the directories in it. -/
def rowsOf (mode : ν → Bytes) (oid : ν → String) (objects : String → String) (rows : Paths ν) : List Row :=
  (rows.filterMap file?).map (blobRow mode oid) ++
    (sortedSet (rows.filterMap directory?)).map fun name => treeRow name (objects name)

theorem Listed.rows_nodup (h : Listed rows) : (rowsOf mode oid objects rows).Nodup := by
  refine List.nodup_append.mpr ⟨?_, ?_, ?_⟩
  · have hnames := (nodup_files h.nodup).map encode_injective
    refine List.Nodup.of_map Row.name ?_
    simpa [map_map, Function.comp_def, blobRow] using hnames
  · refine Listing.nodup_sortedSet.map fun a b hab => ?_
    simp only [treeRow, Row.mk.injEq] at hab
    exact encode_injective hab.2.1
  · rintro a ha b hb rfl
    obtain ⟨f, -, rfl⟩ := List.mem_map.mp ha
    obtain ⟨name, -, hname⟩ := List.mem_map.mp hb
    simp [treeRow, blobRow] at hname

theorem mem_rowsOf : r ∈ rowsOf mode oid objects rows ↔
    ∃ row ∈ rows, (∃ name v, row = ([name], v) ∧ r = blobRow mode oid (name, v)) ∨
      ∃ name, directory? row = some name ∧ r = treeRow name (objects name) := by
  simp only [rowsOf, mem_append, mem_map, mem_filterMap, Listing.mem_sortedSet]
  constructor
  · rintro (⟨⟨name, v⟩, ⟨row, hrow, hf⟩, rfl⟩ | ⟨name, ⟨row, hrow, hd⟩, rfl⟩)
    · exact ⟨row, hrow, .inl ⟨name, v, file?_eq_some.mp hf, rfl⟩⟩
    · exact ⟨row, hrow, .inr ⟨name, hd, rfl⟩⟩
  · rintro ⟨row, hrow, ⟨name, v, rfl, rfl⟩ | ⟨name, hd, rfl⟩⟩
    · exact .inl ⟨(name, v), ⟨_, hrow, rfl⟩, rfl⟩
    · exact .inr ⟨name, ⟨row, hrow, hd⟩, rfl⟩

theorem Listed.rows_perm (h : Listed rows) (hoid : ∀ row ∈ rows, ∀ name v, row = ([name], v) → oid v ≠ "") :
    ((ofList (rows.filterMap (entryOf mode oid))).entries.map (resolved objects)).Perm
      (rowsOf mode oid objects rows) := by
  refine (perm_ext_iff_of_nodup ((nodup_resolved hoid).of_map _) h.rows_nodup).mpr fun r => ?_
  rw [mem_map, mem_rowsOf]
  constructor
  · rintro ⟨e, he, rfl⟩
    obtain ⟨row, hrow, hentry⟩ := GitTree.mem_entries he
    refine ⟨row, hrow, ?_⟩
    have hne := hoid row hrow
    obtain ⟨path, v⟩ := row
    match path with
    | [] => cases hentry
    | [name] =>
      cases hentry
      exact .inl ⟨name, v, rfl, by simp [resolved, blobRow, hne name v rfl]⟩
    | name :: _ :: _ =>
      cases hentry
      exact .inr ⟨name, rfl, by simp [resolved]⟩
  · rintro ⟨row, hrow, ⟨name, v, rfl, rfl⟩ | ⟨name, hd, rfl⟩⟩
    · refine ⟨_, h.mem_entries.mpr ⟨_, hrow, rfl⟩, ?_⟩
      simp [resolved, blobRow, hoid _ hrow name v rfl]
    · obtain ⟨path, v⟩ := row
      obtain ⟨part, rest, rfl⟩ := directory?_eq_some.mp hd
      exact ⟨_, h.mem_entries.mpr ⟨_, hrow, rfl⟩, by simp [resolved]⟩

end

theorem mapM_map {g : β → Option γ} {l : List α} : (l.map f).mapM g = l.mapM fun a => g (f a) := by
  induction l with
  | nil => rfl
  | cons a l ih => simp [ih]

theorem mapM_mem {f : α → Option β} {l : List α} (h : l.mapM f = some bs) (ha : a ∈ l) :
    ∃ b ∈ bs, f a = some b := by
  have hmem : f a ∈ bs.map some := mapM_eq_some.mp h ▸ mem_map_of_mem ha
  simpa [eq_comm] using hmem

/-- Whoever makes trees answers with the id of the tree object, and takes no row without an object. -/
def Documented (id : Bytes → String) (make : List Row → Option String) : Prop :=
  ∀ rows i, make rows = some i →
    (∀ row ∈ rows, row.oid ≠ "") ∧ ∃ body, treeBody rows = some body ∧ i = id (object "tree" body)

theorem hashed_of_made {id : Bytes → String}
    (hmake : Documented id make) (hrows : Listed rows) (h : made make mode oid n rows = some i) :
    hashed id mode oid n rows = some i := by
  induction n generalizing rows i with
  | zero => cases h
  | succ n ih =>
    simp only [made, Option.bind_eq_bind, Option.bind_eq_some_iff] at h
    obtain ⟨directories, hdirectories, hmade⟩ := h
    -- the objects of the directories, as they were made
    let objects : String → String := fun name => (made make mode oid n (below name rows)).getD ""
    have hobjects : ∀ name ∈ sortedSet (rows.filterMap directory?),
        made make mode oid n (below name rows) = some (objects name) := by
      intro name hname
      obtain ⟨row, -, hrow⟩ := mapM_mem hdirectories hname
      obtain ⟨i, hi, -⟩ := Option.map_eq_some_iff.mp hrow
      simp [objects, hi]
    have hdirs : directories =
        (sortedSet (rows.filterMap directory?)).map fun name => treeRow name (objects name) := by
      have hsame := mapM_eq_some.mp hdirectories
      rw [map_congr_left (g := some ∘ fun name => treeRow name (objects name))
        (fun name hname => by simp [hobjects name hname]), ← map_map] at hsame
      exact (List.map_injective_iff.mpr (Option.some_injective _) hsame).symm
    subst hdirs
    obtain ⟨hnonempty, body, hbody, rfl⟩ := hmake _ _ hmade
    have hoid : ∀ row ∈ rows, ∀ name v, row = ([name], v) → oid v ≠ "" := by
      rintro _ hrow name v rfl
      exact hnonempty (blobRow mode oid (name, v)) (mem_rowsOf.mpr ⟨_, hrow, .inl ⟨name, v, rfl, rfl⟩⟩)
    have hperm : (_ : List Row).Perm (rowsOf mode oid objects rows) := hrows.rows_perm hoid
    have hsorted : byKey Row.key (rowsOf mode oid objects rows) =
        (byKey Prod.fst (ofList (rows.filterMap (entryOf mode oid))).entries).map (resolved objects) := by
      rw [← byKey_map fun e he => resolved_key hoid he]
      exact byKey_congr hperm.symm ((hperm.map Row.key).nodup_iff.mp (nodup_resolved hoid))
    have hparts : ∀ e ∈ byKey Prod.fst (ofList (rows.filterMap (entryOf mode oid))).entries,
        ((if e.2.oid ≠ "" then some e.2.oid else hashed id mode oid n (below e.2.name rows)).bind
          fun o => Row.bytes ⟨e.2.mode, encode e.2.name, o, false⟩) = (resolved objects e).bytes := by
      intro e he
      obtain ⟨row, hrow, hentry⟩ := mem_entries ((byKey_perm _ _).mem_iff.mp he)
      have hne := hoid row hrow
      obtain ⟨path, v⟩ := row
      match path with
      | [] => cases hentry
      | [name] =>
        cases hentry
        simp [resolved, hne name v rfl]
      | name :: _ :: _ =>
        cases hentry
        have hname : name ∈ sortedSet (rows.filterMap directory?) := by
          simp only [Listing.mem_sortedSet, mem_filterMap]
          exact ⟨_, hrow, rfl⟩
        simp [resolved, ih hrows.below (hobjects name hname), treeRow, Row.bytes]
    simp only [treeBody, rowsOf] at hbody hsorted
    rw [hsorted, mapM_map, ← mapM_congr hparts] at hbody
    obtain ⟨parts, hmapped, rfl⟩ := Option.map_eq_some_iff.mp hbody
    simp only [hashed, hmapped, Option.bind_eq_bind, Option.bind_some, pure]

end Karajan.GitTree
