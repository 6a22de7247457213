import Mathlib.Data.List.Nodup

/-!
# Pages of a list

A page is a window of a list. Its cursor names the last item of the window as
long as items are left, and the next page starts behind the item a cursor
names. With distinct names the pages joined are the list.
-/

namespace Karajan.Pages

structure Page (α : Type u) (κ : Type v) where
  items : List α
  next_cursor : Option κ

variable {α : Type u} {κ : Type v} {ε : Type w} [DecidableEq κ] (name : α → κ) (items : List α)

/-- Where the page behind a cursor starts. -/
def behind : Option κ → Option Nat
  | none => some 0
  | some cursor =>
    if cursor ∈ items.map name then some ((items.map name).idxOf cursor + 1) else none

def window (size start : Nat) : Page α κ :=
  let window := (items.drop start).take size
  { items := window
    next_cursor := if start + size < items.length then window.getLast?.map name else none }

/-- The pages that are read by following the cursor until there is none. -/
inductive Follows (ask : Option κ → Except ε (Page α κ)) : Option κ → List (Page α κ) → Prop
  | last : ask cursor = .ok page → page.next_cursor = none → Follows ask cursor [page]
  | more : ask cursor = .ok page → page.next_cursor = some next → Follows ask (some next) pages →
    Follows ask cursor (page :: pages)

variable {name items}

theorem window_next (hnames : (items.map name).Nodup) (hsize : 0 < size) (hleft : start + size < items.length) :
    ∃ next, (window name items size start).next_cursor = some next ∧
      behind name items (some next) = some (start + size) := by
  have hlt : start + size - 1 < items.length := by omega
  refine ⟨name items[start + size - 1], ?_, ?_⟩
  · have hlast : ((items.drop start).take size).getLast? = some items[start + size - 1] := by
      rw [List.getLast?_eq_getElem?, List.length_take, List.length_drop, Nat.min_eq_left (by omega),
        List.getElem?_take_of_lt (by omega), List.getElem?_drop, List.getElem?_eq_some_iff]
      exact ⟨by omega, by congr 1; omega⟩
    simp [window, hleft, hlast]
  · have hidx : (items.map name).idxOf (name items[start + size - 1]) = start + size - 1 := by
      have h := hnames.idxOf_getElem (start + size - 1) (by simpa using hlt)
      rwa [List.getElem_map] at h
    rw [behind, if_pos (List.mem_map_of_mem (List.getElem_mem hlt)), hidx]
    congr 1
    omega

section
variable {ask : Option κ → Except ε (Page α κ)} (hnames : (items.map name).Nodup) (hsize : 0 < size)
  (hask : ∀ cursor start, behind name items cursor = some start → ask cursor = .ok (window name items size start))
include hnames hsize hask

theorem follows_from :
    ∀ left start cursor, items.length - start ≤ left → behind name items cursor = some start →
      ∃ pages, Follows ask cursor pages ∧ (pages.map Page.items).flatten = items.drop start := by
  intro left
  induction left with
  | zero =>
    intro start cursor hleft hstart
    have hnone : (window name items size start).next_cursor = none := by
      simp only [window, ite_eq_right_iff]
      omega
    refine ⟨_, .last (hask cursor start hstart) hnone, ?_⟩
    have hempty : items.drop start = [] := List.drop_eq_nil_of_le (by omega)
    simp [window, hempty]
  | succ left ih =>
    intro start cursor hleft hstart
    by_cases hmore : start + size < items.length
    · obtain ⟨next, hnext, hbehind⟩ := window_next hnames hsize hmore
      obtain ⟨pages, hpages, hrest⟩ := ih (start + size) (some next) (by omega) hbehind
      refine ⟨_, .more (hask cursor start hstart) hnext hpages, ?_⟩
      rw [List.map_cons, List.flatten_cons, hrest, ← List.drop_drop]
      exact List.take_append_drop size (items.drop start)
    · have hnone : (window name items size start).next_cursor = none := by simp [window, hmore]
      refine ⟨_, .last (hask cursor start hstart) hnone, ?_⟩
      have htake : (items.drop start).take size = items.drop start :=
        List.take_of_length_le (by rw [List.length_drop]; omega)
      simp [window, htake]

theorem follows :
    ∃ pages, Follows ask none pages ∧ (pages.map Page.items).flatten = items :=
  follows_from hnames hsize hask items.length 0 none (Nat.sub_le ..) rfl

end

end Karajan.Pages
