import Mathlib.Order.Lattice
import Mathlib.Data.List.Basic

/-!
# A log of windows

Entries of a log belong to windows. A window may be given an end, and always the
same one; the log goes on to another window only once the current one has ended.
Then time goes forward over the whole log, no window is entered twice, and the
ends of the windows follow each other as the windows do.
-/

namespace Karajan.Windows

open List
variable [LinearOrder τ] (time : α → τ) (window : α → ω) (ends : α → Option τ)

structure Follows (log : List α) (e : α) : Prop where
  later : ∀ p, log.getLast? = some p → time p < time e
  left : ∀ p, log.getLast? = some p → window p ≠ window e → ∃ r, ends p = some r ∧ r ≤ time e
  open_end : ∀ r, ends e = some r → time e < r
  same_end : ∀ p ∈ log, window p = window e → ∀ r, ends p = some r → ends e = some r

inductive Log : List α → Prop
  | nil : Log []
  | snoc (h : Log log) (he : Follows time window ends log e) : Log (log ++ [e])

variable {time window ends}

theorem mem_or_last {log : List α} (h : x ∈ log ++ [e]) : x ∈ log ∨ x = e := by
  simpa using h

theorem Log.increasing (h : Log time window ends log) : log.Pairwise fun x y => time x < time y := by
  induction h with
  | nil => exact .nil
  | @snoc log e h he ih =>
    rw [pairwise_append]
    refine ⟨ih, by simp, fun x hx y hy => ?_⟩
    rw [List.mem_singleton.mp hy]
    rcases eq_nil_or_concat log with rfl | ⟨front, p, rfl⟩
    · cases hx
    · have hp : time p < time e := he.later p (by simp)
      rcases mem_or_last (by simpa using hx) with hx | rfl
      · rw [concat_eq_append, pairwise_append] at ih
        exact lt_trans (ih.2.2 x hx p (by simp)) hp
      · exact hp

theorem Log.before_last (h : Log time window ends (log ++ [e])) (hx : x ∈ log) : time x < time e := by
  have hincreasing := h.increasing
  rw [pairwise_append] at hincreasing
  exact hincreasing.2.2 x hx e (by simp)

theorem Log.open_end (h : Log time window ends log) (hx : x ∈ log) (hr : ends x = some r) : time x < r := by
  induction h with
  | nil => cases hx
  | snoc h he ih =>
    rcases mem_or_last hx with hx | rfl
    · exact ih hx
    · exact he.open_end r hr

theorem Log.same_end (h : Log time window ends log) (hx : x ∈ log) (hy : y ∈ log)
    (hw : window x = window y) (hr : ends x = some r) (hr' : ends y = some r') : r = r' := by
  induction h with
  | nil => cases hx
  | snoc h he ih =>
    rcases mem_or_last hx with hold | rfl <;> rcases mem_or_last hy with hold' | rfl
    · exact ih hold hold'
    · exact Option.some.inj ((he.same_end x hold hw r hr).symm.trans hr')
    · exact Option.some.inj (hr.symm.trans (he.same_end y hold' hw.symm r' hr'))
    · exact Option.some.inj (hr.symm.trans hr')

theorem sublist_snoc {log l : List α} (h : (l ++ [y]).Sublist (log ++ [e])) :
    (l ++ [y]).Sublist log ∨ y = e ∧ l.Sublist log := by
  have hreverse := h.reverse
  simp only [reverse_append, reverse_singleton, singleton_append, cons_sublist_cons'] at hreverse
  obtain hsub | ⟨rfl, hsub⟩ := hreverse
  · left
    have hback := hsub.reverse
    simpa using hback
  · exact .inr ⟨rfl, List.reverse_sublist.mp hsub⟩

section
variable (h : Log time window ends log)
include h

theorem Log.ended_last (he : Follows time window ends log e) (hx : x ∈ log) (hw : window x ≠ window e) :
    ∃ m ∈ log, window m = window x ∧ ∃ r, ends m = some r ∧ r ≤ time e := by
  induction h generalizing e with
  | nil => cases hx
  | @snoc log p h hp ih =>
    have hlast : (log ++ [p]).getLast? = some p := by simp
    by_cases hpx : window p = window x
    · obtain ⟨r, hr, hle⟩ := he.left p hlast (hpx ▸ hw)
      exact ⟨p, by simp, hpx, r, hr, hle⟩
    · rcases mem_or_last hx with hx | rfl
      · obtain ⟨m, hm, hmx, r, hr, hle⟩ := ih hp hx (Ne.symm hpx)
        exact ⟨m, by simp [hm], hmx, r, hr, le_trans hle (le_of_lt (he.later p hlast))⟩
      · exact absurd rfl hpx

theorem Log.ended (hxy : [x, y].Sublist log) (hw : window x ≠ window y) :
    ∃ m ∈ log, window m = window x ∧ ∃ r, ends m = some r ∧ r ≤ time y := by
  induction h with
  | nil => cases hxy
  | snoc h he ih =>
    obtain hxy | ⟨rfl, hx⟩ := sublist_snoc (l := [x]) hxy
    · obtain ⟨m, hm, hmx, hr⟩ := ih hxy
      exact ⟨m, by simp [hm], hmx, hr⟩
    · obtain ⟨m, hm, hmx, hr⟩ := h.ended_last he (by simpa using hx) hw
      exact ⟨m, by simp [hm], hmx, hr⟩

theorem Log.contiguous (hxyz : [x, y, z].Sublist log) (hw : window x = window z) : window y = window x := by
  induction h with
  | nil => cases hxyz
  | @snoc log e h he ih =>
    obtain hxyz | ⟨rfl, hxy⟩ := sublist_snoc (l := [x, y]) hxyz
    · exact ih hxyz
    · by_contra hne
      obtain ⟨m, hm, hmx, r, hr, hle⟩ := h.ended hxy (Ne.symm hne)
      have hend : ends z = some r := he.same_end m hm (hmx.trans hw) r hr
      have hbefore : time y < time z := (Log.snoc h he).before_last (hxy.subset (by simp))
      exact absurd (lt_trans hbefore (he.open_end r hend)) (not_lt.mpr hle)

theorem Log.ends_increasing (hxy : [x, y].Sublist log)
    (hw : window x ≠ window y) (hr : ends x = some r) (hr' : ends y = some r') : r < r' := by
  have hx : x ∈ log := hxy.subset (by simp)
  have hy : y ∈ log := hxy.subset (by simp)
  obtain ⟨m, hm, hmx, end_, hend, hle⟩ := h.ended hxy hw
  have heq : r = end_ := h.same_end hx hm hmx.symm hr hend
  exact lt_of_le_of_lt (heq ▸ hle) (h.open_end hy hr')

end

theorem Log.left (h : Log time window ends (front ++ x :: y :: rest)) (hw : window x ≠ window y) :
    ∃ r, ends x = some r ∧ r ≤ time y := by
  generalize hlog : front ++ x :: y :: rest = log at h
  induction h generalizing rest with
  | nil => simp at hlog
  | @snoc log e h he ih =>
    rcases eq_nil_or_concat rest with rfl | ⟨rest, z, rfl⟩
    · have hsplit : front ++ [x] ++ [y] = log ++ [e] := by simpa using hlog
      obtain ⟨rfl, heq⟩ := append_inj' hsplit rfl
      cases heq
      exact he.left x (by simp) hw
    · have hsplit : front ++ x :: y :: rest ++ [z] = log ++ [e] := by simpa using hlog
      exact ih (append_inj' hsplit rfl).1

end Karajan.Windows
