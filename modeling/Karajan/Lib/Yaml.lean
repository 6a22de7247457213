import Karajan.Lib.Dict
import Karajan.Lib.Json

/-!
# Declared documents

What a parsed document is made of. A mapping is the list of its entries; the
parser refuses a key that occurs twice, which is what `Document` records. A
value of any other kind, a number with a fraction say, is known by how it is
shown, and no two of them are shown alike.
-/

namespace Karajan

inductive Key
  | null
  | bool (b : Bool)
  | int (n : Int)
  | text (s : String)
  | other (shown : String)
  deriving DecidableEq

inductive Yaml
  | null
  | bool (b : Bool)
  | int (n : Int)
  | text (s : String)
  | other (shown : String)
  | list (items : List Yaml)
  | map (entries : List (Key × Yaml))

abbrev Mapping := List (Key × Yaml)

def Key.value : Key → Yaml
  | .null => .null
  | .bool b => .bool b
  | .int n => .int n
  | .text s => .text s
  | .other shown => .other shown

def Key.text? : Key → Option String
  | .text s => some s
  | _ => none

namespace Yaml

-- Reading a value

def text? : Yaml → Option String
  | .text s => some s
  | _ => none

def int? : Yaml → Option Int
  | .int n => some n
  | _ => none

def list? : Yaml → Option (List Yaml)
  | .list items => some items
  | _ => none

def map? : Yaml → Option Mapping
  | .map entries => some entries
  | _ => none

def texts? : Yaml → Option (List String)
  | .list items => items.mapM text?
  | _ => none

def isNull : Yaml → Bool
  | .null => true
  | _ => false

def hashable : Yaml → Bool
  | .list _ | .map _ => false
  | _ => true

def ofTexts (texts : List String) : Yaml := .list (texts.map .text)

def ofText? : Option String → Yaml
  | some s => .text s
  | none => .null

section
variable {value : Yaml}

theorem text?_eq_some : value.text? = some s ↔ value = .text s := by
  cases value <;> simp [text?]

theorem int?_eq_some : value.int? = some n ↔ value = .int n := by
  cases value <;> simp [int?]

theorem list?_eq_some : value.list? = some items ↔ value = .list items := by
  cases value <;> simp [list?]

theorem map?_eq_some : value.map? = some entries ↔ value = .map entries := by
  cases value <;> simp [map?]

theorem isNull_iff : value.isNull = true ↔ value = .null := by
  cases value <;> simp [isNull]

end

theorem mapM_text?_eq_some {items : List Yaml} : items.mapM text? = some texts ↔ items = texts.map .text := by
  induction items generalizing texts with
  | nil => cases texts <;> simp
  | cons item items ih =>
    cases texts with
    | nil => simp [Option.bind_eq_some_iff]
    | cons text texts => simp [Option.bind_eq_some_iff, text?_eq_some, ih]

theorem texts?_eq_some {value : Yaml} : value.texts? = some texts ↔ value = ofTexts texts := by
  cases value <;> simp [texts?, ofTexts, mapM_text?_eq_some]

end Yaml

-- Reading a mapping

namespace Mapping

def find (m : Mapping) (name : String) : Option Yaml := Dict.lookup (.text name) m

def get (m : Mapping) (name : String) : Yaml := (m.find name).getD .null

def getD (m : Mapping) (name : String) (default : Yaml) : Yaml := (m.find name).getD default

end Mapping

-- Documents

mutual
def Yaml.distinct : Yaml → Bool
  | .list items => Yaml.distinctItems items
  | .map entries => decide (entries.map Prod.fst).Nodup && Yaml.distinctEntries entries
  | _ => true
def Yaml.distinctItems : List Yaml → Bool
  | [] => true
  | item :: rest => item.distinct && Yaml.distinctItems rest
def Yaml.distinctEntries : Mapping → Bool
  | [] => true
  | (_, value) :: rest => value.distinct && Yaml.distinctEntries rest
end

structure Document where
  value : Yaml
  distinct : value.distinct = true

theorem distinct_item (h : Yaml.distinctItems items = true) (hm : item ∈ items) : item.distinct = true := by
  induction items with
  | nil => cases hm
  | cons x items ih =>
    simp only [Yaml.distinctItems, Bool.and_eq_true] at h
    rcases List.mem_cons.mp hm with rfl | hm
    · exact h.1
    · exact ih h.2 hm

theorem distinct_entry (h : Yaml.distinctEntries entries = true)
    (hm : (k, value) ∈ entries) : value.distinct = true := by
  induction entries with
  | nil => cases hm
  | cons e entries ih =>
    simp only [Yaml.distinctEntries, Bool.and_eq_true] at h
    rcases List.mem_cons.mp hm with rfl | hm
    · exact h.1
    · exact ih h.2 hm

theorem distinct_find {m : Mapping} (h : (Yaml.map m).distinct = true)
    (hfind : m.find name = some value) : value.distinct = true := by
  simp only [Yaml.distinct, Bool.and_eq_true, decide_eq_true_eq] at h
  exact distinct_entry h.2 ((Dict.lookup_eq_some h.1).mp hfind)

theorem distinct_getD {m : Mapping} (h : (Yaml.map m).distinct = true)
    (hmissing : missing.distinct = true) : (m.getD name missing).distinct = true := by
  rw [Mapping.getD]
  cases hfind : m.find name with
  | none => exact hmissing
  | some value => exact distinct_find h hfind

mutual
def Yaml.allTexts : Yaml → List String
  | .text s => [s]
  | .list items => Yaml.allTextsOf items
  | .map entries => Yaml.allTextsIn entries
  | _ => []
def Yaml.allTextsOf : List Yaml → List String
  | [] => []
  | item :: rest => item.allTexts ++ Yaml.allTextsOf rest
def Yaml.allTextsIn : Mapping → List String
  | [] => []
  | (name, value) :: rest => name.text?.toList ++ value.allTexts ++ Yaml.allTextsIn rest
end

mutual
def Yaml.containsBool : Yaml → Bool
  | .bool _ => true
  | .list items => Yaml.containsBoolOf items
  | .map entries => Yaml.containsBoolIn entries
  | _ => false
def Yaml.containsBoolOf : List Yaml → Bool
  | [] => false
  | item :: rest => item.containsBool || Yaml.containsBoolOf rest
def Yaml.containsBoolIn : Mapping → Bool
  | [] => false
  | (_, value) :: rest => value.containsBool || Yaml.containsBoolIn rest
end

-- Text

def splitText (separator : Char) (text : String) : List String :=
  (text.toList.splitOn separator).map String.ofList

def rpartition (separator : Char) (text : String) : Option (String × String) :=
  match text.toList.reverse.span (· ≠ separator) with
  | (after, _ :: before) => some (String.ofList before.reverse, String.ofList after.reverse)
  | (_, []) => none

def stripText (isspace : Char → Bool) (text : String) : String :=
  String.ofList ((text.toList.dropWhile isspace).reverse.dropWhile isspace).reverse

theorem startsWith_comparable (h : startsWith text a = true) (h' : startsWith text b = true) :
    startsWith b a = true ∨ startsWith a b = true := by
  rw [startsWith_iff] at h h' ⊢
  rw [startsWith_iff]
  exact List.prefix_or_prefix_of_prefix h h'

end Karajan
