import Karajan.Lib.Check
import Mathlib.Data.List.Sort
import Mathlib.Data.List.Dedup
import Mathlib.Data.List.Perm.Basic

/-!
# Lists that are read as sets

Some lists are only asked what is in them, or which item has a key. The order
of such a list says nothing: what is read of one is read of any other that has
the same items, provided that no two items have the same key.
-/

namespace Karajan.Listing

open List
variable {α β κ : Type*}

theorem filter_only {l : List α} (hl : l.Nodup) (ha : a ∈ l) (hp : p a = true)
    (honly : ∀ b ∈ l, p b = true → b = a) : l.filter p = [a] := by
  classical
  have hsame : l.filter p = l.filter (· = a) := filter_congr fun b hb => by
      cases hpb : p b with
      | true => simp [honly b hb hpb]
      | false =>
        have hne : b ≠ a := by
          rintro rfl
          simp [hp] at hpb
        simp [hne]
  rw [hsame, filter_eq, count_eq_one_of_mem hl ha]
  rfl

-- Sorted sets

section
variable [LinearOrder α] {l l' : List α}

def sortedSet (l : List α) : List α := l.dedup.insertionSort (· ≤ ·)

@[simp] theorem mem_sortedSet : a ∈ sortedSet l ↔ a ∈ l := by simp [sortedSet]
@[simp] theorem sortedSet_eq_nil : sortedSet l = [] ↔ l = [] := by
  constructor
  · intro h
    rw [eq_nil_iff_forall_not_mem] at h ⊢
    simpa using h
  · rintro rfl
    rfl

theorem nodup_sortedSet : (sortedSet l).Nodup := (perm_insertionSort _ _).nodup_iff.mpr (nodup_dedup l)

theorem sortedSet_sorted : (sortedSet l).SortedLT :=
  (pairwise_insertionSort (· ≤ ·) l.dedup).sortedLE.sortedLT_of_nodup nodup_sortedSet

theorem sortedSet_congr (h : ∀ a, a ∈ l ↔ a ∈ l') : sortedSet l = sortedSet l' :=
  sortedSet_sorted.eq_of_mem_iff sortedSet_sorted fun a => by simp [h a]

end

-- Listings of related items

theorem exists_right {R : α → β → Prop} (h : List.Forall₂ R l l') (ha : a ∈ l) : ∃ b ∈ l', R a b := by
  induction h with
  | nil => cases ha
  | cons hr _ ih =>
    rcases List.mem_cons.mp ha with rfl | ha
    · exact ⟨_, by simp, hr⟩
    · obtain ⟨b, hb, hr⟩ := ih ha
      exact ⟨b, mem_cons_of_mem _ hb, hr⟩

theorem exists_left {R : α → β → Prop} (h : List.Forall₂ R l l') (hb : b ∈ l') :
    ∃ a ∈ l, R a b := exists_right h.flip hb

/-- Two listings of one collection, each item of the one related to the item of the other
that stands for it. -/
def Relisted (R : α → β → Prop) (l : List α) (l' : List β) : Prop := ∃ m, l.Perm m ∧ List.Forall₂ R m l'

variable {l : List α} {l' : List β}

theorem Relisted.of_perm {l l' : List α} (h : l.Perm l') : Relisted Eq l l' :=
  ⟨l', h, by simp⟩

theorem Relisted.symm (h : Relisted R l l') : Relisted (fun b a => R a b) l' l := by
  obtain ⟨m, hm, hr⟩ := h
  obtain ⟨m', hr', hm'⟩ := perm_comp_forall₂ hm hr
  exact ⟨m', hm'.symm, hr'.flip⟩

theorem Relisted.imp (h : Relisted R l l') (hs : ∀ a b, R a b → S a b) : Relisted S l l' := by
  obtain ⟨m, hm, hr⟩ := h
  exact ⟨m, hm, hr.imp hs⟩

theorem Relisted.cons (hab : R a b) (h : Relisted R l l') : Relisted R (a :: l) (b :: l') := by
  obtain ⟨m, hm, hr⟩ := h
  exact ⟨a :: m, hm.cons a, .cons hab hr⟩

theorem Relisted.map_imp {γ δ : Type*} {S : γ → δ → Prop} {f : α → γ} {g : β → δ}
    (h : Relisted R l l') (hs : ∀ a b, R a b → S (f a) (g b)) : Relisted S (l.map f) (l'.map g) := by
  obtain ⟨m, hm, hr⟩ := h
  refine ⟨m.map f, hm.map f, ?_⟩
  simpa using hr.imp hs

theorem Relisted.map {f : α → κ} {g : β → κ} (h : Relisted R l l') (hf : ∀ a b, R a b → f a = g b) :
    (l.map f).Perm (l'.map g) := by
  obtain ⟨m, hm, hr⟩ := h
  refine (hm.map f).trans (.of_eq ?_)
  clear hm
  induction hr with
  | nil => rfl
  | cons hxy _ ih => simp [hf _ _ hxy, ih]

theorem Relisted.forall {p : α → Prop} {q : β → Prop} (h : Relisted R l l')
    (hp : ∀ a b, R a b → (p a ↔ q b)) : (∀ a ∈ l, p a) ↔ ∀ b ∈ l', q b := by
  obtain ⟨m, hm, hr⟩ := h
  rw [show (∀ a ∈ l, p a) ↔ ∀ a ∈ m, p a by simp [hm.mem_iff]]
  clear hm
  induction hr with
  | nil => simp
  | cons hxy _ ih => simp [hp _ _ hxy, ih]

theorem Relisted.length (h : Relisted R l l') : l.length = l'.length := by
  obtain ⟨m, hm, hr⟩ := h
  exact hm.length_eq.trans hr.length_eq

theorem Relisted.flatten {l l' : List (List α)} (h : Relisted List.Perm l l') : l.flatten.Perm l'.flatten := by
  obtain ⟨m, hm, hr⟩ := h
  exact hm.flatten.trans (List.Perm.flatten_congr hr)

theorem Relisted.each {S : γ → δ → Prop} {cs : List γ} {f : α → Except ε γ} {g : β → Except ε δ}
    (h : Relisted R l l') (hf : ∀ a b c, R a b → f a = .ok c → ∃ d, g b = .ok d ∧ S c d)
    (hl : Check.each f l = .ok cs) : ∃ ds, Check.each g l' = .ok ds ∧ Relisted S cs ds := by
  obtain ⟨m, hm, hr⟩ := h
  obtain ⟨cs', hcs', hperm⟩ := perm_comp_forall₂ hm.symm (Check.each_forall₂.mp hl)
  clear hm hl
  suffices hds : ∃ ds, Check.each g l' = .ok ds ∧ List.Forall₂ S cs' ds by
    obtain ⟨ds, hg, hs⟩ := hds
    exact ⟨ds, hg, cs', hperm.symm, hs⟩
  clear hperm
  induction hr generalizing cs' with
  | nil =>
    cases hcs'
    exact ⟨[], rfl, .nil⟩
  | cons hab _ ih =>
    cases hcs' with
    | cons hc hrest =>
      obtain ⟨d, hd, hs⟩ := hf _ _ _ hab hc
      obtain ⟨ds, hds, hss⟩ := ih _ hrest
      exact ⟨d :: ds, Check.each_cons_ok.mpr ⟨d, ds, hd, hds, rfl⟩, .cons hs hss⟩

-- Lookups by a key

section
variable [DecidableEq κ] {k : κ}

theorem find_eq_some (hl : (l.map key).Nodup) : l.find? (key · = k) = some a ↔ a ∈ l ∧ key a = k := by
  constructor
  · intro h
    exact ⟨mem_of_find?_eq_some h, by simpa using find?_some h⟩
  · rintro ⟨ha, rfl⟩
    cases hf : l.find? (key · = key a) with
    | none => simpa using find?_eq_none.mp hf a ha
    | some b =>
      have hb : key b = key a := by simpa using find?_some hf
      rw [inj_on_of_nodup_map hl (mem_of_find?_eq_some hf) ha hb]

theorem find_perm {l' : List α} (hl : (l.map key).Nodup) (h : l.Perm l') :
    l'.find? (key · = k) = l.find? (key · = k) := by
  have hl' : (l'.map key).Nodup := (h.map key).nodup_iff.mp hl
  ext a
  rw [find_eq_some hl, find_eq_some hl', h.mem_iff]

theorem Relisted.find {key' : β → κ} (h : Relisted R l l') (hl : (l.map key).Nodup)
    (hkey : ∀ a b, R a b → key a = key' b) : Option.Rel R (l.find? (key · = k)) (l'.find? (key' · = k)) := by
  obtain ⟨m, hm, hr⟩ := h
  rw [← find_perm hl hm]
  clear hm
  induction hr with
  | nil => exact .none
  | @cons x y m l' hxy _ ih =>
    by_cases hk : key x = k
    · simpa [find?_cons, hk, hkey x y hxy ▸ hk] using Option.Rel.some hxy
    · simpa [find?_cons, hk, hkey x y hxy ▸ hk] using ih

end

end Karajan.Listing
