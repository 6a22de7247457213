import Karajan.Compiler.Steps
import Karajan.Scheduling.Settlement

/-!
# Both cycle detections

The scheduler looks for a cycle in a task map, the compiler in a graph of
steps. Each answers none exactly when there is no cycle, and otherwise a list
that follows the dependencies back to where it began.
-/

namespace Karajan.Compiler

open Scheduling (Task DependsWithin dependencyCycle dependencyCycle_decides)

def targets (graph : Dict String (List String)) (node : String) : List String := (graph.get? node).getD []

/-- The compiler's search (`_find_cycle`), on a graph all of whose targets are nodes. -/
def findCycleIn (graph : Dict String (List String)) : Option (List String) :=
  (Dfs.explore (targets graph) (Dfs.rounds (targets graph) graph.keys) graph.keys .empty).found

/-- Cycle detection is exact, and the two agree on the same dependencies. -/
theorem cycles_decided (tasks : Dict String Task) (graph : Dict String (List String))
    (hnodes : ∀ node, ∀ target ∈ targets graph node, target ∈ graph.keys) :
    Dfs.Decides (DependsWithin tasks) (dependencyCycle tasks) ∧
    Dfs.Decides (fun target node => target ∈ targets graph node) (findCycleIn graph) ∧
    ((∀ a b, DependsWithin tasks a b ↔ a ∈ targets graph b) →
      (dependencyCycle tasks = none ↔ findCycleIn graph = none)) := by
  have hgraph : Dfs.Decides (Dfs.Below (targets graph)) (findCycleIn graph) := by
    refine Dfs.explore_decides (fun node _ target htarget => hnodes node target htarget) fun a ha => ?_
    rw [targets, Dict.get?_eq_none.mpr ha]
    rfl
  refine ⟨dependencyCycle_decides tasks, hgraph, fun hsame => ?_⟩
  have hbelow : DependsWithin tasks = Dfs.Below (targets graph) := by
    funext a b
    exact propext (hsame a b)
  rw [(dependencyCycle_decides tasks).none_iff, hgraph.none_iff, hbelow]

theorem cycles_decided_closed : findCycleIn ((Dict.empty.put "a" ["b"]).put "b" ["a"]) = some ["a", "b", "a"] ∧
    Dfs.Closes (fun target node => target ∈ targets ((Dict.empty.put "a" ["b"]).put "b" ["a"]) node)
      ["a", "b", "a"] := by
  have hfound : findCycleIn ((Dict.empty.put "a" ["b"]).put "b" ["a"]) = some ["a", "b", "a"] := by
    decide +kernel
  refine ⟨hfound, (cycles_decided .empty _ ?_).2.1.closes _ hfound⟩
  intro node target htarget
  simp only [targets, Dict.get?_put] at htarget
  simp only [Dict.mem_keys_put]
  split at htarget
  · exact .inr (.inl (by simpa using htarget))
  · split at htarget
    · exact .inl (by simpa using htarget)
    · simp at htarget

end Karajan.Compiler
