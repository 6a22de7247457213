import Mathlib.Data.List.Nodup
import Mathlib.Logic.Relation

/-!
# Peeling a graph in layers

In each round, the nodes all of whose needs were visited before are visited. A
round that visits nothing new, with nodes left, has met a cycle. What carries
the proof is that a visited node is accessible: no chain of needs descends from
it for ever.
-/

namespace Karajan.Layers

variable {α : Type u} [DecidableEq α] (nodes : List α) (needs : α → List α)

def available (visited : List α) : List α := nodes.filter fun a => (needs a).all (· ∈ visited)

/-- Whether every node is visited at last; a round that goes on visits a new one, so that
there are no more rounds than nodes. -/
def peel : Nat → List α → Bool
  | 0, visited => nodes.all (· ∈ visited)
  | rounds + 1, visited =>
    if nodes.all (· ∈ visited) then true
    else if (available nodes needs visited).all (· ∈ visited) then false
    else peel rounds (visited ++ available nodes needs visited)

/-- The needs of a node that are nodes, as a relation that can be descended. -/
def Needed (b a : α) : Prop := b ∈ needs a

variable {nodes needs}

theorem mem_available : a ∈ available nodes needs visited ↔ a ∈ nodes ∧ ∀ b ∈ needs a, b ∈ visited := by
  simp [available]

theorem available_acc (h : ∀ a ∈ visited, Acc (Needed needs) a) (ha : a ∈ available nodes needs visited) :
    Acc (Needed needs) a :=
  .intro a fun b hb => h b ((mem_available.mp ha).2 b hb)

theorem peel_acc (h : peel nodes needs rounds visited = true)
    (hv : ∀ a ∈ visited, Acc (Needed needs) a) : ∀ a ∈ nodes, Acc (Needed needs) a := by
  induction rounds generalizing visited with
  | zero =>
    intro a ha
    simp only [peel, List.all_eq_true, decide_eq_true_eq] at h
    exact hv a (h a ha)
  | succ rounds ih =>
    simp only [peel] at h
    split at h
    case isTrue hall =>
      simp only [List.all_eq_true, decide_eq_true_eq] at hall
      intro a ha
      exact hv a (hall a ha)
    · split at h
      · cases h
      · refine ih h fun a ha => ?_
        rcases List.mem_append.mp ha with ha | ha
        · exact hv a ha
        · exact available_acc hv ha

omit [DecidableEq α] in
theorem not_cycle_of_acc (h : Acc (Needed needs) a) : ¬ Relation.TransGen (Needed needs) a a := by
  have hacc : Acc (Relation.TransGen (Needed needs)) a := h.transGen
  clear h
  intro hcycle
  induction hacc with
  | intro a _ ih => exact ih a hcycle hcycle

-- Spreading

variable (nodes needs)

def following (marked : List α) : List α := nodes.filter fun a => (needs a).any (· ∈ marked)

/-- Marks what needs something marked, until that is marked already; a round that goes on
marks a new node. -/
def spread : Nat → List α → List α
  | 0, marked => marked
  | rounds + 1, marked =>
    if (following nodes needs marked).all (· ∈ marked) then marked
    else spread rounds (marked ++ following nodes needs marked)

variable {nodes needs}

end Karajan.Layers
