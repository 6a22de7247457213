import Mathlib.Data.List.Basic

/-!
# Text and JSON values

A request body is a JSON value before anything has been checked about it. An
object is the list of its fields in the order they were written; reading an
absent field gives `null`, as a lookup with no default does.

Text is compared by code points. The operations on it go through the list of
its characters, so that their laws are those of lists.
-/

namespace Karajan

inductive Json
  | null
  | bool (b : Bool)
  | int (n : Int)
  | float (q : Rat)
  | str (s : String)
  | list (items : List Json)
  | object (fields : List (String × Json))

abbrev Fields := List (String × Json)

namespace Json

def str? : Json → Option String
  | .str s => some s
  | _ => none

def bool? : Json → Option Bool
  | .bool b => some b
  | _ => none

def int? : Json → Option Int
  | .int n => some n
  | _ => none

def list? : Json → Option (List Json)
  | .list items => some items
  | _ => none

def object? : Json → Option Fields
  | .object fields => some fields
  | _ => none

theorem str?_eq_some {value : Json} : value.str? = some text ↔ value = .str text := by
  cases value <;> simp [str?]

theorem list?_eq_some {value : Json} : value.list? = some items ↔ value = .list items := by
  cases value <;> simp [list?]

theorem object?_eq_some {value : Json} : value.object? = some fields ↔ value = .object fields := by
  cases value <;> simp [object?]

def ofText? : Option String → Json
  | some s => .str s
  | none => .null

def ofTexts (texts : List String) : Json := .list (texts.map .str)

def ofNat? : Option Nat → Json
  | some n => .int n
  | none => .null

def ofTime? : Option Rat → Json
  | some q => .float q
  | none => .null

end Json

def findField (fields : Fields) (name : String) : Option Json :=
  match fields with
  | [] => none
  | (name', value) :: rest => if name' = name then some value else findField rest name

def field (fields : Fields) (name : String) : Json := (findField fields name).getD .null

def fieldD (fields : Fields) (name : String) (default : Json) : Json := (findField fields name).getD default

def outside (fields : Fields) (allowed : List String) : List String :=
  (fields.map Prod.fst).filter fun name => !allowed.contains name

-- Text

def startsWith (text start : String) : Bool := start.toList.isPrefixOf text.toList

def endsWith (text ending : String) : Bool := ending.toList.isSuffixOf text.toList

def takeText (n : Nat) (text : String) : String := String.ofList (text.toList.take n)

def dropEnd (n : Nat) (text : String) : String := String.ofList (text.toList.take (text.toList.length - n))

theorem startsWith_iff : startsWith text start = true ↔ start.toList <+: text.toList := by
  simp [startsWith]

theorem endsWith_iff : endsWith text ending = true ↔ ending.toList <:+ text.toList := by
  simp [endsWith]

theorem dropEnd_append (h : endsWith text ending = true) :
    dropEnd ending.toList.length text ++ ending = text := by
  obtain ⟨front, hf⟩ := endsWith_iff.mp h
  apply String.toList_inj.mp
  simp [dropEnd, ← hf]

@[simp] theorem dropEnd_of_append : dropEnd ending.toList.length (text ++ ending) = text := by
  simp [dropEnd]

@[simp] theorem endsWith_append : endsWith (text ++ ending) ending = true := by
  simp [endsWith_iff]

end Karajan
