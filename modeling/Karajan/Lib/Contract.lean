import Karajan.Lib.Json
import Mathlib.Data.List.Nodup

/-!
# Strict contracts

A contract reads an object: it takes no field it does not name, gives what
stands for a field that is absent, and writes down what it read. What it wrote
it reads as it is, in whatever order the fields come.
-/

namespace Karajan

open List

-- Values

mutual
def Json.decEq : (a b : Json) → Decidable (a = b)
  | .null, b => match b with
    | .null => .isTrue rfl
    | .bool _ | .int _ | .float _ | .str _ | .list _ | .object _ => .isFalse (by simp)
  | .bool x, b => match b with
    | .bool y => decidable_of_iff (x = y) (by simp)
    | .null | .int _ | .float _ | .str _ | .list _ | .object _ => .isFalse (by simp)
  | .int x, b => match b with
    | .int y => decidable_of_iff (x = y) (by simp)
    | .null | .bool _ | .float _ | .str _ | .list _ | .object _ => .isFalse (by simp)
  | .float x, b => match b with
    | .float y => decidable_of_iff (x = y) (by simp)
    | .null | .bool _ | .int _ | .str _ | .list _ | .object _ => .isFalse (by simp)
  | .str x, b => match b with
    | .str y => decidable_of_iff (x = y) (by simp)
    | .null | .bool _ | .int _ | .float _ | .list _ | .object _ => .isFalse (by simp)
  | .list x, b => match b with
    | .list y => let _ := decEqItems x y; decidable_of_iff (x = y) (by simp)
    | .null | .bool _ | .int _ | .float _ | .str _ | .object _ => .isFalse (by simp)
  | .object x, b => match b with
    | .object y => let _ := decEqFields x y; decidable_of_iff (x = y) (by simp)
    | .null | .bool _ | .int _ | .float _ | .str _ | .list _ => .isFalse (by simp)
def decEqItems : (a b : List Json) → Decidable (a = b)
  | [], b => match b with
    | [] => .isTrue rfl
    | _ :: _ => .isFalse (by simp)
  | x :: xs, b => match b with
    | [] => .isFalse (by simp)
    | y :: ys =>
      let _ := x.decEq y
      let _ := decEqItems xs ys
      decidable_of_iff (x = y ∧ xs = ys) (by simp)
def decEqFields : (a b : List (String × Json)) → Decidable (a = b)
  | [], b => match b with
    | [] => .isTrue rfl
    | _ :: _ => .isFalse (by simp)
  | (n, x) :: xs, b => match b with
    | [] => .isFalse (by simp)
    | (m, y) :: ys =>
      let _ := x.decEq y
      let _ := decEqFields xs ys
      decidable_of_iff ((n = m ∧ x = y) ∧ xs = ys) (by simp)
end

instance : DecidableEq Json := Json.decEq

/-- A field goes before the first one that is not less; the first of one name stays the first. -/
def insertField (e : String × Json) : Fields → Fields
  | [] => [e]
  | e' :: rest => if e.1 ≤ e'.1 then e :: e' :: rest else e' :: insertField e rest

mutual
/-- The value with the fields of every object in the order of their names. -/
def Json.sorted : Json → Json
  | .null => .null
  | .bool b => .bool b
  | .int n => .int n
  | .float q => .float q
  | .str s => .str s
  | .list items => .list (sortedItems items)
  | .object fields => .object (sortedFields fields)
def sortedItems : List Json → List Json
  | [] => []
  | v :: rest => v.sorted :: sortedItems rest
def sortedFields : List (String × Json) → List (String × Json)
  | [] => []
  | (name, value) :: rest => insertField (name, value.sorted) (sortedFields rest)
end

theorem findField_insertField :
    findField (insertField e l) name = if e.1 = name then some e.2 else findField l name := by
  induction l with
  | nil => simp [insertField, findField]
  | cons e' rest ih =>
    unfold insertField
    split
    · simp [findField]
    case isFalse hle =>
      simp only [findField, ih]
      by_cases hname : e'.1 = name
      · have hne : e.1 ≠ name := by
          intro heq
          exact hle (heq.trans hname.symm ▸ String.le_refl _)
        simp [hname, hne]
      · simp [hname]

theorem findField_sorted {l : Fields} : findField (sortedFields l) name = (findField l name).map Json.sorted := by
  induction l with
  | nil => rfl
  | cons e rest ih =>
    simp only [sortedFields, findField_insertField, ih, findField]
    split <;> rfl

theorem findField_eq_none : findField l name = none ↔ name ∉ l.map Prod.fst := by
  induction l with
  | nil => simp [findField]
  | cons e rest ih =>
    by_cases hname : e.1 = name
    · simp [findField, hname]
    · simp [findField, hname, ih, Ne.symm hname]

theorem findField_of_mem (hl : (l.map Prod.fst).Nodup) (h : (name, v) ∈ l) : findField l name = some v := by
  induction l with
  | nil => simp at h
  | cons e rest ih =>
    simp only [map_cons, nodup_cons] at hl
    rcases mem_cons.mp h with rfl | hrest
    · simp [findField]
    · have hne : e.1 ≠ name := by
        rintro rfl
        exact hl.1 (mem_map.mpr ⟨_, hrest, rfl⟩)
      simp [findField, hne, ih hl.2 hrest]

theorem outside_congr (h : ∀ name, (findField given name).isSome = (findField given' name).isSome) :
    (outside given allowed).isEmpty = (outside given' allowed).isEmpty := by
  have hiff : ∀ l : Fields, (outside l allowed).isEmpty = true ↔
      ∀ name, (findField l name).isSome = true → name ∈ allowed := by
    intro l
    have hsome : ∀ name, (findField l name).isSome = true ↔ name ∈ l.map Prod.fst := by
      intro name
      rw [← not_iff_not, ← findField_eq_none]
      simp
    simp only [hsome, outside, List.isEmpty_iff, List.filter_eq_nil_iff]
    simp
  rw [Bool.eq_iff_iff, hiff, hiff]
  simp [h]

-- Contracts

structure ContractField where
  name : String
  read : Json → Option Json
  /-- What stands for a field that is not given, none where it must be. -/
  absent : Option Json

namespace ContractField

def required (name : String) (read : Json → Option Json) : ContractField := ⟨name, read, none⟩

def nullable (name : String) (read : Json → Option Json) : ContractField where
  name := name
  read v := if v = .null then some .null else read v
  absent := some .null

def get (f : ContractField) (given : Fields) : Option Json :=
  match findField given f.name with
  | some v => f.read v
  | none => f.absent

end ContractField

def readAll : List ContractField → Fields → Option Fields
  | [], _ => some []
  | f :: fields, given =>
    match f.get given, readAll fields given with
    | some v, some rest => some ((f.name, v) :: rest)
    | _, _ => none

def written (read : Fields) : Fields := read.filter (·.2 ≠ .null)

def readContract (fields : List ContractField) : Json → Option Json
  | .object given =>
    if (outside given (fields.map (·.name))).isEmpty then
      (readAll fields given).map fun read => .object (written read)
    else none
  | _ => none

/-- What a reader wrote it reads as it is, whatever the order of the fields. -/
structure Reads (read : Json → Option Json) : Prop where
  stable : ∀ v v', read v = some v' → read v' = some v'
  blind : ∀ v, read v.sorted = read v

structure ContractField.Lawful (f : ContractField) : Prop where
  reads : Reads f.read
  absent : ∀ d, f.absent = some d → f.read d = some d
  null : ∀ v, f.read v = some .null → f.absent = some .null

theorem readAll_names (h : readAll fields given = some rs) : rs.map Prod.fst = fields.map (·.name) := by
  induction fields generalizing rs with
  | nil => cases h; rfl
  | cons f fields ih =>
    simp only [readAll] at h
    split at h
    case h_1 v rest hv hrest =>
      cases h
      simp [ih hrest]
    · cases h

theorem readAll_mem (h : readAll fields given = some rs) (hf : f ∈ fields) :
    ∃ v, f.get given = some v ∧ (f.name, v) ∈ rs := by
  induction fields generalizing rs with
  | nil => simp at hf
  | cons f' fields ih =>
    simp only [readAll] at h
    split at h
    case h_1 v rest hv hrest =>
      cases h
      rcases mem_cons.mp hf with rfl | hf
      · exact ⟨v, hv, by simp⟩
      · obtain ⟨w, hw, hmem⟩ := ih hrest hf
        exact ⟨w, hw, mem_cons_of_mem _ hmem⟩
    · cases h

theorem readAll_congr (h : ∀ f ∈ fields, f.get given = f.get given') :
    readAll fields given = readAll fields given' := by
  induction fields with
  | nil => rfl
  | cons f fields ih =>
    simp only [readAll, h f (by simp), ih fun f' hf' => h f' (mem_cons_of_mem _ hf')]

theorem contract_congr (h : ∀ name, findField given name = findField given' name) :
    readContract fields (.object given) = readContract fields (.object given') := by
  have houtside : (outside given (fields.map (·.name))).isEmpty =
      (outside given' (fields.map (·.name))).isEmpty := outside_congr (by simp [h])
  have hget : ∀ f ∈ fields, f.get given = f.get given' := by
    intro f _
    simp only [ContractField.get, h]
  simp only [readContract, houtside, readAll_congr hget]

theorem contract_ok (h : readContract fields v = some v') : ∃ given rs, v = .object given ∧
    readAll fields given = some rs ∧ v' = .object (written rs) := by
  cases v with
  | object given =>
    simp only [readContract] at h
    split at h
    · obtain ⟨rs, hrs, rfl⟩ := Option.map_eq_some_iff.mp h
      exact ⟨given, rs, rfl, hrs, rfl⟩
    · cases h
  | _ => cases h

theorem contract_stable (hn : (fields.map (·.name)).Nodup) (hf : ∀ f ∈ fields, f.Lawful)
    (h : readContract fields v = some v') : readContract fields v' = some v' := by
  obtain ⟨given, rs, rfl, hrs, rfl⟩ := contract_ok h
  have hnames := readAll_names hrs
  have hnodup : (rs.map Prod.fst).Nodup := hnames ▸ hn
  have hkept : ((written rs).map Prod.fst).Nodup := hnodup.sublist (filter_sublist.map _)
  have hmemkept : ∀ e, e ∈ written rs ↔ e ∈ rs ∧ e.2 ≠ .null := by simp [written]
  have hget : ∀ f ∈ fields, f.get (written rs) = f.get given := by
    intro f hfm
    obtain ⟨w, hw, hmem⟩ := readAll_mem hrs hfm
    rw [hw]
    have hread : f.read w = some w := by
      unfold ContractField.get at hw
      split at hw
      · exact (hf f hfm).reads.stable _ _ hw
      · exact (hf f hfm).absent w hw
    by_cases hnull : w = .null
    · subst hnull
      have hnone : findField (written rs) f.name = none := by
        rw [findField_eq_none]
        intro hin
        obtain ⟨⟨name, v⟩, hv, rfl⟩ := mem_map.mp hin
        obtain ⟨hv, hne⟩ := (hmemkept _).mp hv
        have hsame := (findField_of_mem hnodup hv).symm.trans (findField_of_mem hnodup hmem)
        simp [Option.some.inj hsame] at hne
      simpa [ContractField.get, hnone] using (hf f hfm).null _ hread
    · have hfind : findField (written rs) f.name = some w :=
        findField_of_mem hkept ((hmemkept _).mpr ⟨hmem, hnull⟩)
      simp [ContractField.get, hfind, hread]
  have houtside : (outside (written rs) (fields.map (·.name))).isEmpty = true := by
    simp only [outside, List.isEmpty_iff, List.filter_eq_nil_iff, ← hnames]
    intro name hname
    obtain ⟨e, he, rfl⟩ := List.mem_map.mp hname
    simpa using ⟨e.2, ((hmemkept e).mp he).1⟩
  simp [readContract, houtside, readAll_congr hget, hrs]

theorem contract_blind (hf : ∀ f ∈ fields, f.Lawful) (v : Json) :
    readContract fields v.sorted = readContract fields v := by
  cases v with
  | object given =>
    have hget : ∀ f ∈ fields, f.get (sortedFields given) = f.get given := by
      intro f hfm
      unfold ContractField.get
      rw [findField_sorted]
      cases findField given f.name with
      | none => rfl
      | some w => exact (hf f hfm).reads.blind w
    have houtside : (outside (sortedFields given) (fields.map (·.name))).isEmpty =
        (outside given (fields.map (·.name))).isEmpty := outside_congr (by simp [findField_sorted])
    simp only [Json.sorted, readContract, houtside, readAll_congr hget]
  | _ => rfl

theorem contract_reads (hn : (fields.map (·.name)).Nodup) (hf : ∀ f ∈ fields, f.Lawful) :
    Reads (readContract fields) where
  stable _ _ := contract_stable hn hf
  blind := contract_blind hf

section
variable {name : String} {read : Json → Option Json} (h : Reads read)
include h

theorem ContractField.Lawful.of_required (hnull : ∀ v, read v ≠ some .null) : (ContractField.required name read).Lawful where
  reads := h
  absent d hd := by simp [ContractField.required] at hd
  null v hv := absurd hv (hnull v)

end

theorem contract_outside (name : String) (h : readContract fields v = some v') (hname : name ∉ fields.map (·.name)) :
    ∃ given, v' = .object given ∧ findField given name = none := by
  obtain ⟨given, rs, -, hrs, rfl⟩ := contract_ok h
  refine ⟨written rs, rfl, findField_eq_none.mpr fun hmem => hname ?_⟩
  rw [← readAll_names hrs]
  exact (filter_sublist.map Prod.fst).subset hmem

theorem contract_not_null (v : Json) : readContract fields v ≠ some .null := by
  intro h
  obtain ⟨given, rs, -, -, heq⟩ := contract_ok h
  cases heq

-- Readers of plain values

def readText (ok : String → Bool) : Json → Option Json
  | .str s => if ok s then some (.str s) else none
  | _ => none

def readInt (ok : Int → Bool) : Json → Option Json
  | .int n => if ok n then some (.int n) else none
  | _ => none

/-- A number without a fraction is taken for the fraction it is. -/
def readFloat (ok : Rat → Bool) : Json → Option Json
  | .float q => if ok q then some (.float q) else none
  | .int n => if ok n then some (.float n) else none
  | _ => none

def readBool : Json → Option Json
  | .bool b => some (.bool b)
  | _ => none

def readTexts (ok : String → Bool) (length : Nat) : Json → Option Json
  | .list items =>
    if items.length ≤ length && items.all fun item => (readText ok item).isSome then some (.list items)
    else none
  | _ => none

theorem Reads.of_plain {read : Json → Option Json} (hstable : ∀ v v', read v = some v' → read v' = some v')
    (hlist : ∀ items, read (.list items) = none) (hobject : ∀ fields, read (.object fields) = none) :
    Reads read where
  stable := hstable
  blind v := by cases v <;> simp [Json.sorted, hlist, hobject]

theorem readText_reads (ok : String → Bool) : Reads (readText ok) := by
  refine .of_plain ?_ (fun _ => rfl) fun _ => rfl
  intro v v' h
  cases v with
  | str s =>
    simp only [readText] at h
    split at h
    case isTrue hok => cases h; simp [readText, hok]
    · cases h
  | _ => cases h

theorem readInt_reads (ok : Int → Bool) : Reads (readInt ok) := by
  refine .of_plain ?_ (fun _ => rfl) fun _ => rfl
  intro v v' h
  cases v with
  | int n =>
    simp only [readInt] at h
    split at h
    case isTrue hok => cases h; simp [readInt, hok]
    · cases h
  | _ => cases h

theorem readFloat_reads (ok : Rat → Bool) : Reads (readFloat ok) := by
  refine .of_plain ?_ (fun _ => rfl) fun _ => rfl
  intro v v' h
  cases v with
  | float q | int n =>
    simp only [readFloat] at h
    split at h
    case isTrue hok => cases h; simp [readFloat, hok]
    · cases h
  | _ => cases h

theorem readText_not_null (ok : String → Bool) (v : Json) : readText ok v ≠ some .null := by
  cases v <;> simp [readText]

theorem readInt_not_null (ok : Int → Bool) (v : Json) : readInt ok v ≠ some .null := by
  cases v <;> simp [readInt]

theorem readFloat_not_null (ok : Rat → Bool) (v : Json) : readFloat ok v ≠ some .null := by
  cases v <;> simp [readFloat]

/-- A text that must be given, and is one of those that are allowed. -/
def textField (name : String) (ok : String → Bool) : ContractField := .required name (readText ok)

def literalField (name text : String) : ContractField := textField name (· = text)

def intField (name : String) (ok : Int → Bool) : ContractField := .required name (readInt ok)

def floatField (name : String) (ok : Rat → Bool) : ContractField := .required name (readFloat ok)

def contractField (name : String) (fields : List ContractField) : ContractField :=
  .required name (readContract fields)

@[simp] theorem textField_lawful (name : String) (ok : String → Bool) : (textField name ok).Lawful :=
  .of_required (readText_reads ok) (readText_not_null ok)

@[simp] theorem literalField_lawful (name text : String) : (literalField name text).Lawful :=
  textField_lawful name _

@[simp] theorem intField_lawful (name : String) (ok : Int → Bool) : (intField name ok).Lawful :=
  .of_required (readInt_reads ok) (readInt_not_null ok)

@[simp] theorem floatField_lawful (name : String) (ok : Rat → Bool) : (floatField name ok).Lawful :=
  .of_required (readFloat_reads ok) (readFloat_not_null ok)

structure LawfulFields (fields : List ContractField) : Prop where
  nodup : (fields.map (·.name)).Nodup
  lawful : ∀ f ∈ fields, f.Lawful

theorem contractField_lawful (name : String) (h : LawfulFields fields) : (contractField name fields).Lawful :=
  .of_required (contract_reads h.nodup h.lawful) contract_not_null

theorem contract_required {read : Json → Option Json}
    (hn : (fields.map (·.name)).Nodup) (h : readContract fields v = some v')
    (hf : .required name read ∈ fields) (hnull : ∀ u, read u ≠ some .null) :
    ∃ given u w, v' = .object given ∧ findField given name = some w ∧ read u = some w := by
  obtain ⟨given, rs, -, hrs, rfl⟩ := contract_ok h
  obtain ⟨w, hw, hmem⟩ := readAll_mem hrs hf
  have hread : ∃ u, read u = some w := by
    unfold ContractField.get at hw
    split at hw
    case h_1 u _ => exact ⟨u, hw⟩
    · cases hw
  obtain ⟨u, hu⟩ := hread
  have hne : w ≠ .null := by
    rintro rfl
    exact hnull u hu
  have hkept : ((written rs).map Prod.fst).Nodup := (readAll_names hrs ▸ hn).sublist (filter_sublist.map _)
  refine ⟨written rs, u, w, rfl, findField_of_mem hkept ?_, hu⟩
  exact mem_filter.mpr ⟨hmem, by simp [hne]⟩

end Karajan
