import Mathlib.Data.List.Induction
import Mathlib.Data.List.Pairwise

/-!
# Feeds

A feed is a list of numbered items that only grows at its end, each item under a
larger number than those before it. A reader keeps the number it has read to;
what it reads next is what lies beyond that number, so that nothing is read
twice and nothing is left out.
-/

namespace Karajan.Feeds

open List
variable {α : Type u} (number : α → Nat)

def Ordered (feed : List α) : Prop := feed.Pairwise fun a b => number a < number b

def last (feed : List α) : Nat := (feed.getLast?.map number).getD 0

def beyond (cursor : Nat) (feed : List α) : List α := feed.filter (cursor < number ·)

def between (start cursor : Nat) (feed : List α) : List α :=
  feed.filter fun a => start < number a && number a ≤ cursor

/-- Where a reader is that was there already, or was handed these items. -/
def next (cursor : Nat) (items : List α) : Nat := (items.getLast?.map number).getD cursor

variable {number} {feed feed' : List α}

@[simp] theorem last_concat : last number (feed ++ [a]) = number a := by simp [last]

theorem last_of_mem (h : feed ≠ []) : ∃ a ∈ feed, number a = last number feed := by
  refine ⟨feed.getLast h, getLast_mem h, ?_⟩
  simp [last, getLast?_eq_some_getLast h]

theorem between_grows (h : Ordered number feed') (hgrows : feed <+: feed')
    (hcursor : cursor = 0 ∨ ∃ a ∈ feed, number a = cursor) :
    between number start cursor feed' = between number start cursor feed := by
  obtain ⟨more, rfl⟩ := hgrows
  simp only [between, filter_append]
  refine List.append_right_eq_self.mpr (List.filter_eq_nil_iff.mpr fun b hb hread => ?_)
  simp only [Bool.and_eq_true, decide_eq_true_eq] at hread
  rcases hcursor with rfl | ⟨a, ha, rfl⟩
  · omega
  · have hbeyond := (List.pairwise_append.mp h).2.2 a ha b hb
    omega

variable (h : Ordered number feed)
include h

theorem Ordered.le_last (ha : a ∈ feed) : number a ≤ last number feed := by
  induction feed using reverseRecOn with
  | nil => cases ha
  | append_singleton feed b _ =>
    rw [last_concat]
    rcases List.mem_append.mp ha with ha | ha
    · exact Nat.le_of_lt ((List.pairwise_append.mp h).2.2 a ha b (mem_singleton_self b))
    · exact Nat.le_of_eq (congrArg number (List.mem_singleton.mp ha))

theorem Ordered.concat (ha : ∀ b ∈ feed, number b < number a) : Ordered number (feed ++ [a]) := by
  refine List.pairwise_append.mpr ⟨h, pairwise_singleton _ _, fun b hb c hc => ?_⟩
  rw [List.mem_singleton.mp hc]
  exact ha b hb

theorem Ordered.sublist (hsub : feed'.Sublist feed) : Ordered number feed' := List.Pairwise.sublist hsub h

theorem filter_split (hle : start ≤ cursor) :
    between number start cursor feed ++ beyond number cursor feed = beyond number start feed := by
  induction feed with
  | nil => rfl
  | cons a feed ih =>
    have hrest := ih h.of_cons
    have hafter := (List.pairwise_cons.mp h).1
    by_cases hread : number a ≤ cursor
    · by_cases hstart : start < number a
      · simpa [between, beyond, hread, hstart, Nat.not_lt.mpr hread] using hrest
      · simpa [between, beyond, hstart, Nat.not_lt.mpr hread] using hrest
    · -- What follows the first item beyond the cursor is beyond it too.
      have hall : ∀ b ∈ feed, cursor < number b := fun b hb => by
        have := hafter b hb
        omega
      have hnone : between number start cursor feed = [] := List.filter_eq_nil_iff.mpr fun b hb => by
          have := hall b hb
          simp only [Bool.and_eq_true, decide_eq_true_eq]
          omega
      have hstart : start < number a := by omega
      have hcons : between number start cursor (a :: feed) = [] := by
        simpa [between, hread] using hnone
      rw [hcons, nil_append]
      have hfirst : cursor < number a := by omega
      have hsame : feed.filter (cursor < number ·) = feed.filter (start < number ·) := by
        refine filter_congr fun b hb => ?_
        have := hall b hb
        simp only [decide_eq_decide]
        omega
      simp [beyond, hfirst, hstart, hsame]

theorem Ordered.between_last : between number start (last number feed) feed = beyond number start feed := by
  refine filter_congr fun a ha => ?_
  have := h.le_last ha
  simp [this]

theorem Ordered.next_beyond : next number (last number feed) (beyond number cursor feed) = last number feed := by
  unfold next
  cases hlast : (beyond number cursor feed).getLast? with
  | none => rfl
  | some b =>
    obtain ⟨hb, hlt⟩ := List.mem_filter.mp (mem_of_getLast? hlast)
    simp only [decide_eq_true_eq] at hlt
    refine Nat.le_antisymm (h.le_last hb) ?_
    obtain ⟨c, hc, hnumber⟩ : ∃ c ∈ feed, number c = last number feed := last_of_mem (ne_nil_of_mem hb)
    have hcb : c ∈ beyond number cursor feed := by
      refine List.mem_filter.mpr ⟨hc, ?_⟩
      have := h.le_last hb
      simp only [decide_eq_true_eq]
      omega
    have hbeyond : Ordered number (beyond number cursor feed) := h.sublist filter_sublist
    have := hbeyond.le_last hcb
    rw [last, hlast, hnumber] at this
    exact this

end Karajan.Feeds
