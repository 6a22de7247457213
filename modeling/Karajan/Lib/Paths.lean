import Mathlib.Data.List.DropRight
import Mathlib.Data.List.Infix

/-!
# Paths below a root

A path is a list with a separator between its segments. One is under another
if it is the same, or continues it after a separator, so `src/a` has `src/a/b`
under it and not `src/ab`.
-/

namespace Karajan.Paths

open List
variable {sep : α} {root path below : List α}

def Under (sep : α) (root path : List α) : Prop := path = root ∨ root ++ [sep] <+: path

theorem under_refl : Under sep path path := .inl rfl

theorem under_below : Under sep path (path ++ sep :: rest) := .inr ⟨rest, by simp⟩

theorem under_trans (h : Under sep root path) (h' : Under sep path below) : Under sep root below := by
  rcases h' with rfl | h'
  · exact h
  · rcases h with rfl | h
    · exact .inr h'
    · exact .inr (h.trans ((prefix_append path [sep]).trans h'))

theorem under_split (h : Under sep root (path ++ sep :: rest)) (hrest : sep ∉ rest) :
    Under sep root path ∨ root = path ++ sep :: rest := by
  rcases h with h | ⟨tail, h⟩
  · exact .inr h.symm
  · left
    rw [append_assoc, append_eq_append_iff] at h
    rcases h with ⟨middle, hpath, htail⟩ | ⟨middle, hroot, hrest'⟩
    · -- the root ends inside the path
      cases middle with
      | nil => exact .inl (by simpa using hpath)
      | cons a middle =>
        simp only [cons_append, nil_append, List.cons.injEq] at htail
        rw [hpath, ← htail.1]
        exact under_below
    · cases middle with
      | nil => exact .inl (by simpa using hroot.symm)
      | cons a middle =>
        simp only [cons_append, List.cons.injEq] at hrest'
        exact absurd (by rw [hrest'.2]; simp) hrest

theorem not_under_below : ¬ Under sep (path ++ sep :: rest) path := by
  rintro (h | h)
  · have hlength := congrArg length h
    simp at hlength
  · have hlength := h.length_le
    rw [length_append, length_append, length_cons] at hlength
    omega

-- Segments

section
variable [BEq α] [LawfulBEq α]

theorem Under.segments (h : Under sep root path) : root.splitOn sep <+: path.splitOn sep := by
  rcases h with rfl | ⟨tail, rfl⟩
  · exact prefix_refl _
  · rw [append_assoc, singleton_append, splitOn_append_cons_self]
    exact prefix_append _ _

theorem not_mem_segment (h : part ∈ path.splitOn sep) : sep ∉ part := by
  induction path generalizing part with
  | nil =>
    rw [splitOn_nil, mem_singleton] at h
    subst h
    exact not_mem_nil
  | cons a path ih =>
    rw [splitOn_cons_eq_if_modifyHead] at h
    split at h
    · rcases List.mem_cons.mp h with rfl | h
      · exact not_mem_nil
      · exact ih h
    case isFalse hne =>
      -- the first segment begins with what is not a separator
      obtain ⟨first, rest, hsplit⟩ := exists_cons_of_ne_nil (splitOn_ne_nil sep path)
      rw [hsplit] at h ih
      rcases List.mem_cons.mp h with rfl | h
      · rw [mem_cons, not_or]
        exact ⟨fun heq => hne (by simp [heq]), ih (by simp)⟩
      · exact ih (mem_cons_of_mem _ h)

theorem splitOn_injective (sep : α) (h : root.splitOn sep = path.splitOn sep) : root = path := by
  rw [← (intercalate_splitOn sep : _ = root), h, intercalate_splitOn]

theorem prefix_segments (hrest : sep ∉ rest) (h : root.splitOn sep <+: (path ++ sep :: rest).splitOn sep) :
    root.splitOn sep <+: path.splitOn sep ∨ root = path ++ sep :: rest := by
  rw [splitOn_append_cons_self, splitOn_eq_singleton hrest, prefix_concat_iff] at h
  rcases h with h | h
  · refine .inr (splitOn_injective sep ?_)
    rw [h, splitOn_append_cons_self, splitOn_eq_singleton hrest]
  · exact .inl h

-- Joined segments

def trimmed (sep : α) (path : List α) : List α := path.rdropWhile (· == sep)

theorem trimmed_split (sep : α) (path rest : List α) :
    ∃ tail, path ++ sep :: rest = trimmed sep path ++ sep :: tail := by
  have happend : trimmed sep path ++ path.rtakeWhile (· == sep) = path := rdropWhile_append_rtakeWhile
  cases hends : path.rtakeWhile (· == sep) with
  | nil =>
    rw [hends, append_nil] at happend
    exact ⟨rest, by rw [happend]⟩
  | cons a ends =>
    have ha : a = sep := by
      have hmem : a ∈ path.rtakeWhile (· == sep) := by simp [hends]
      simpa using mem_rtakeWhile_imp hmem
    rw [hends, ha] at happend
    exact ⟨ends ++ sep :: rest, by rw [← cons_append, ← append_assoc, happend]⟩

omit [LawfulBEq α] in
theorem trimmed_append (sep : α) (path rest : List α) : trimmed sep (path ++ rest) =
    if trimmed sep rest = [] then trimmed sep path else path ++ trimmed sep rest := by
  simp only [trimmed, List.rdropWhile, List.reverse_append, List.dropWhile_append,
    List.isEmpty_iff, List.reverse_eq_nil_iff]
  split <;> simp

theorem under_trimmed (sep : α) (path rest : List α) :
    Under sep (trimmed sep path) (trimmed sep (path ++ sep :: rest)) := by
  obtain ⟨tail, htail⟩ := trimmed_split sep path rest
  rw [htail, trimmed_append]
  split
  · exact .inl (rdropWhile_idempotent ..)
  case isFalse hsome =>
    -- what is left of the separator and the rest still begins with the separator
    have hprefix : trimmed sep (sep :: tail) <+: sep :: tail := rdropWhile_prefix ..
    obtain ⟨b, kept, hkept⟩ := exists_cons_of_ne_nil hsome
    rw [hkept, cons_prefix_cons] at hprefix
    rw [hkept, hprefix.1]
    exact under_below

omit [BEq α] [LawfulBEq α] in
theorem intercalate_append (sep : α) (h : one ≠ []) (h' : other ≠ []) :
    [sep].intercalate (one ++ other) = [sep].intercalate one ++ sep :: [sep].intercalate other := by
  induction one with
  | nil => exact absurd rfl h
  | cons first one ih =>
    cases one with
    | nil =>
      rw [cons_append, nil_append, intercalate_cons_of_ne_nil h',
        intercalate_singleton, append_assoc, singleton_append]
    | cons second one =>
      have hrest := ih (by simp)
      simp only [cons_append, intercalate_cons_cons] at hrest ⊢
      rw [hrest]
      simp

theorem under_of_segments (hsome : one ≠ []) (h : one <+: other) :
    Under sep (trimmed sep ([sep].intercalate one)) (trimmed sep ([sep].intercalate other)) := by
  obtain ⟨rest, rfl⟩ := h
  cases rest with
  | nil => rw [append_nil]; exact under_refl
  | cons first rest =>
    rw [intercalate_append sep hsome (by simp)]
    exact under_trimmed sep _ _

end

end Karajan.Paths
