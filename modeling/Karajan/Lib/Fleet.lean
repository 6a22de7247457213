import Karajan.Lib.Runs

/-!
# Processes in flight

A list of processes, each with the stage it has reached. Each serves a key of
its own, so that a step of one of them is of no concern to the others.
-/

namespace Karajan

open List

-- One process of a list

theorem mem_set_cases {l : List α} (hm : p ∈ l.set index q) : p = q ∨ p ∈ l :=
  (mem_or_eq_of_mem_set hm).symm

theorem modify_ended {l : List (α × σ)} (hget : l[index]? = some (a, stage)) :
    l.modify index (fun p => (p.1, stage')) = l.set index (a, stage') := by
  rw [modify_eq_set_getElem?, hget]
  rfl

theorem modify_absent {l : List (α × σ)} (hget : l[index]? = none) : l.modify index f = l :=
  modify_eq_self (getElem?_eq_none_iff.mp hget)

-- Fleets

structure Fleet (key : α → κ) (P : α → σ → Prop) (l : List (α × σ)) : Prop where
  distinct : (l.map fun p => key p.1).Nodup
  holds : ∀ p ∈ l, P p.1 p.2

namespace Fleet

variable {key : α → κ} {P Q : α → σ → Prop} {l : List (α × σ)} {index : Nat}

theorem nil : Fleet key P [] := ⟨nodup_nil, by simp⟩

theorem mono (h : Fleet key P l) (hPQ : ∀ p ∈ l, P p.1 p.2 → Q p.1 p.2) : Fleet key Q l :=
  ⟨h.distinct, fun p hp => hPQ p hp (h.holds p hp)⟩

theorem holds_at (h : Fleet key P l) (hget : l[index]? = some (a, stage)) : P a stage :=
  h.holds (a, stage) (mem_of_getElem? hget)

theorem spawn (h : Fleet key P l) (hnew : ∀ p ∈ l, key p.1 ≠ key a) (ha : P a stage) :
    Fleet key P (l ++ [(a, stage)]) where
  distinct := nodup_snoc h.distinct hnew
  holds p hp := by
    rcases List.mem_append.mp hp with hp | hp
    · exact h.holds p hp
    · cases List.mem_singleton.mp hp
      exact ha

theorem keys_set (hget : l[index]? = some (a, stage)) :
    (l.set index (a, stage')).map (fun p => key p.1) = l.map fun p => key p.1 := by
  apply ext_getElem?
  intro i
  simp only [getElem?_map, getElem?_set]
  split
  case isTrue hi =>
    subst hi
    rw [hget, if_pos (List.getElem?_eq_some_iff.mp hget).1]
    rfl
  · rfl

theorem advance (h : Fleet key P l) (hget : l[index]? = some (a, stage))
    (hothers : ∀ p ∈ l, key p.1 ≠ key a → P p.1 p.2 → Q p.1 p.2) (ha : Q a stage') :
    Fleet key Q (l.set index (a, stage')) where
  distinct := (keys_set hget).symm ▸ h.distinct
  holds p hp := by
    obtain ⟨i, hi⟩ := getElem?_of_mem hp
    rw [getElem?_set] at hi
    split at hi
    · split at hi
      · cases hi; exact ha
      · cases hi
    case isFalse hne =>
      have hmem : p ∈ l := mem_of_getElem? hi
      refine hothers p hmem ?_ (h.holds p hmem)
      intro hkey
      have hkeys : (l.map fun p => key p.1)[i]? = (l.map fun p => key p.1)[index]? := by
        simp [getElem?_map, hi, hget, hkey]
      have hlt : i < (l.map fun p => key p.1).length := by
        simpa using (List.getElem?_eq_some_iff.mp hi).1
      exact hne ((List.getElem?_inj hlt h.distinct).mp hkeys).symm

theorem reach (h : Fleet key P l) (hget : l[index]? = some (a, stage)) (ha : P a stage') :
    Fleet key P (l.set index (a, stage')) := h.advance hget (fun _ _ _ hp => hp) ha

end Fleet

-- Tickets

/-- Processes that may serve the same key, but of which one at most holds its ticket. -/
def Tickets (ticket : α → Option κ) (l : List α) : Prop :=
  ∀ (i j : Nat) p q k, l[i]? = some p → l[j]? = some q → ticket p = some k → ticket q = some k → i = j

namespace Tickets

variable {ticket : α → Option κ}

theorem nil : Tickets ticket [] := by simp [Tickets]

theorem snoc (h : Tickets ticket l) (hp : ticket p = none) : Tickets ticket (l ++ [p]) := by
  have hold : ∀ (i : Nat) q k, (l ++ [p])[i]? = some q → ticket q = some k → l[i]? = some q := by
    intro i q k hi hq
    rw [getElem?_append] at hi
    split at hi
    · exact hi
    · have hmem := mem_of_getElem? hi
      cases List.mem_singleton.mp hmem
      simp [hp] at hq
  intro i j q r k hi hj hq hr
  exact h i j q r k (hold i q k hi hq) (hold j r k hj hr) hq hr

theorem set (h : Tickets ticket l) (hp : ∀ k, ticket p = some k → ∀ q ∈ l, ticket q ≠ some k) :
    Tickets ticket (l.set index p) := by
  have hcases : ∀ (i : Nat) q, (l.set index p)[i]? = some q → i = index ∧ q = p ∨ l[i]? = some q := by
    intro i q hi
    rw [getElem?_set] at hi
    split at hi
    case isTrue heq =>
      split at hi
      · cases hi; exact .inl ⟨heq.symm, rfl⟩
      · cases hi
    · exact .inr hi
  intro i j q r k hi hj hq hr
  rcases hcases i q hi with ⟨rfl, rfl⟩ | hiold
  · rcases hcases j r hj with ⟨rfl, rfl⟩ | hjold
    · rfl
    · exact absurd hr (hp k hq r (mem_of_getElem? hjold))
  · rcases hcases j r hj with ⟨rfl, rfl⟩ | hjold
    · exact absurd hq (hp k hr q (mem_of_getElem? hiold))
    · exact h i j q r k hiold hjold hq hr

theorem others (h : Tickets ticket l) (hget : l[index]? = some p) (hp : ticket p = some k)
    (hq : q ∈ l.set index p') : q = p' ∨ ticket q ≠ some k := by
  obtain ⟨i, hi⟩ := getElem?_of_mem hq
  rw [getElem?_set] at hi
  split at hi
  · split at hi
    · cases hi; exact .inl rfl
    · cases hi
  case isFalse hne => exact .inr fun hk => hne (h index i p q k hget hi hp hk)

end Tickets

end Karajan
