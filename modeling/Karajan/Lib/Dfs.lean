import Mathlib.Logic.Relation
import Mathlib.Data.List.Chain
import Mathlib.Algebra.Order.Ring.Nat
import Karajan.Lib.Dict

/-!
# Iterative depth-first search for a cycle

The search keeps a colour for every node it has met, an explicit stack of
nodes with the index of the neighbour to look at next, and the path of grey
nodes it stands on. Meeting a grey neighbour closes a cycle; a node whose
neighbours are all looked at turns black.

The search is written in two styles, of which the second paints a node as it
is pushed and leaves its entry on the stack. They take the same rounds. What
carries the proof is that a black node is accessible: every descending chain of
neighbours that starts there ends. Every round takes one from what is left to
look at, so that a search ends, with every node black or with a cycle.
-/

namespace Karajan.Dfs

open List Dict

inductive Colour
  | grey
  | black
  deriving DecidableEq

/-- How a search ends: it painted everything it met, it closed a cycle, or it
was given too few rounds to tell. -/
inductive Outcome (α : Type u)
  | finished (colour : Dict α Colour)
  | cycle (nodes : List α)
  | exhausted

variable {α : Type u} [DecidableEq α] (next : α → List α)

def visit : Nat → Dict α Colour → List (α × Nat) → List α → Outcome α
  | _, colour, [], _ => .finished colour
  | 0, _, _ :: _, _ => .exhausted
  | rounds + 1, colour, (node, index) :: stack, path =>
    if index = 0 ∧ colour.get? node = some .black then visit rounds colour stack path
    else
      let colour := if index = 0 then colour.put node .grey else colour
      let path := if index = 0 then path ++ [node] else path
      match (next node)[index]? with
      | some neighbour =>
        match colour.get? neighbour with
        | some .grey => .cycle (path.drop (path.idxOf neighbour) ++ [neighbour])
        | some .black => visit rounds colour ((node, index + 1) :: stack) path
        | none => visit rounds colour ((neighbour, 0) :: (node, index + 1) :: stack) path
      | none => visit rounds (colour.put node .black) stack path.dropLast

/-- The outer loop: start from every node that is still uncoloured. -/
def search (rounds : Nat) : List α → Dict α Colour → Outcome α
  | [], colour => .finished colour
  | start :: rest, colour =>
    if (colour.get? start).isSome then search rounds rest colour
    else
      match visit next rounds colour [(start, 0)] [] with
      | .finished colour => search rounds rest colour
      | ended => ended

def rounds (nodes : List α) : Nat := nodes.foldl (fun rounds node => rounds + (next node).length + 1) 1

-- The second style

def peek : Nat → Dict α Colour → List (α × Nat) → List α → Outcome α
  | _, colour, [], _ => .finished colour
  | 0, _, _ :: _, _ => .exhausted
  | rounds + 1, colour, (node, index) :: stack, path =>
    match (next node)[index]? with
    | none => peek rounds (colour.put node .black) stack path.dropLast
    | some target =>
      match colour.get? target with
      | some .grey => .cycle (path.drop (path.idxOf target) ++ [target])
      | some .black => peek rounds colour ((node, index + 1) :: stack) path
      | none =>
        peek rounds (colour.put target .grey) ((target, 0) :: (node, index + 1) :: stack) (path ++ [target])

def explore (rounds : Nat) : List α → Dict α Colour → Outcome α
  | [], colour => .finished colour
  | origin :: rest, colour =>
    if (colour.get? origin).isSome then explore rounds rest colour
    else
      match peek next rounds (colour.put origin .grey) [(origin, 0)] [origin] with
      | .finished colour => explore rounds rest colour
      | ended => ended

variable {next} {turns : Nat} {colour : Dict α Colour} {stack : List (α × Nat)} {front nodes : List α}

theorem visit_eq_peek (hstack : ∀ e ∈ stack, e.2 ≠ 0) (hnew : index = 0 → colour.get? node = none) :
    visit next turns colour ((node, index) :: stack) path =
      peek next turns (if index = 0 then colour.put node .grey else colour) ((node, index) :: stack)
        (if index = 0 then path ++ [node] else path) := by
  induction turns generalizing colour node index stack path with
  | zero => rfl
  | succ turns ih =>
    have hpushed : ∀ e ∈ (node, index + 1) :: stack, e.2 ≠ 0 :=
      List.forall_mem_cons.mpr ⟨Nat.succ_ne_zero _, hstack⟩
    rw [visit, if_neg fun h => by rw [hnew h.1] at h; cases h.2]
    generalize (if index = 0 then colour.put node .grey else colour) = met
    generalize (if index = 0 then path ++ [node] else path) = path
    rw [peek]
    cases (next node)[index]? with
    | none =>
      cases stack with
      | nil => cases turns <;> rfl
      | cons e stack =>
        obtain ⟨he, hrest⟩ := List.forall_mem_cons.mp hstack
        simpa [he] using ih hrest (fun h => absurd h he)
    | some target =>
      cases hcolour : met.get? target with
      | none =>
        have hmeets : visit next turns met ((target, 0) :: (node, index + 1) :: stack) path = _ :=
          ih hpushed fun _ => hcolour
        rw [if_pos rfl, if_pos rfl] at hmeets
        simpa only [hcolour] using hmeets
      | some c =>
        cases c with
        | grey => simp [hcolour]
        | black => simpa [hcolour] using ih hstack (fun h => absurd h (Nat.succ_ne_zero index))

theorem search_eq_explore : search next turns nodes colour = explore next turns nodes colour := by
  induction nodes generalizing colour with
  | nil => rfl
  | cons origin rest ih =>
    rw [search, explore]
    split
    · exact ih
    case isFalse hnone =>
      rw [Bool.not_eq_true, Option.isSome_eq_false_iff, Option.isNone_iff_eq_none] at hnone
      rw [visit_eq_peek (by simp) fun _ => hnone, if_pos rfl, if_pos rfl, nil_append]
      cases peek next turns (colour.put origin .grey) [(origin, 0)] [origin] with
      | finished colour => exact ih
      | cycle _ | exhausted => rfl

-- What the search knows

def Below (next : α → List α) (b a : α) : Prop := b ∈ next a

/-- A list that comes back to where it began, each node below the one before it. -/
structure Closes (below : α → α → Prop) (cycle : List α) : Prop where
  long : 2 ≤ cycle.length
  back : cycle.getLast? = cycle.head?
  chain : cycle.IsChain fun a b => below b a

/-- The black nodes are accessible, and the grey ones are on the path. -/
structure Inv (next : α → List α) (colour : Dict α Colour) (path : List α) : Prop where
  black_acc : ∀ a, colour.get? a = some .black → Acc (Below next) a
  grey_path : ∀ a, colour.get? a = some .grey → a ∈ path
  chain : path.IsChain fun a b => b ∈ next a

theorem Inv.meet (h : Inv next colour path) (hchain : (path ++ [target]).IsChain fun a b => b ∈ next a) :
    Inv next (colour.put target .grey) (path ++ [target]) := by
  refine ⟨fun a ha => ?_, fun a ha => ?_, hchain⟩
  · rcases of_put ha with ⟨-, hgrey⟩ | ⟨-, ha⟩
    · cases hgrey
    · exact h.black_acc a ha
  · rcases of_put ha with ⟨rfl, -⟩ | ⟨-, ha⟩
    · simp
    · exact mem_append_left _ (h.grey_path a ha)

theorem Inv.push (h : Inv next colour (front ++ [node])) (htarget : target ∈ next node) :
    Inv next (colour.put target .grey) (front ++ [node] ++ [target]) := by
  refine h.meet (List.isChain_append.mpr ⟨h.chain, isChain_singleton _, ?_⟩)
  simpa using htarget

theorem black_put (hput : colour.get? node = none ∨ c = .black) (ha : colour.get? a = some .black) :
    (colour.put node c).get? a = some .black := by
  rw [get?_put]
  split
  case isTrue heq =>
    rw [heq, ha] at hput
    simpa using hput
  · exact ha

theorem Inv.pop (h : Inv next colour (front ++ [node])) (hall : ∀ b ∈ next node, colour.get? b = some .black) :
    Inv next (colour.put node .black) front := by
  refine ⟨fun a ha => ?_, fun a ha => ?_, h.chain.left_of_append⟩
  · rcases of_put ha with ⟨rfl, -⟩ | ⟨-, ha⟩
    · exact .intro node fun b hb => h.black_acc b (hall b hb)
    · exact h.black_acc a ha
  · rcases of_put ha with ⟨-, hblack⟩ | ⟨hne, ha⟩
    · cases hblack
    · refine (List.mem_append.mp (h.grey_path a ha)).resolve_right fun hm => ?_
      exact hne (List.mem_singleton.mp hm).symm

theorem Inv.closes (h : Inv next colour (front ++ [node])) (htarget : target ∈ next node)
    (hgrey : colour.get? target = some .grey) :
    Closes (Below next) ((front ++ [node]).drop ((front ++ [node]).idxOf target) ++ [target]) := by
  have hlt := idxOf_lt_length_of_mem (h.grey_path target hgrey)
  have hdrop := drop_eq_getElem_cons hlt
  rw [getElem_idxOf hlt] at hdrop
  refine ⟨by rw [hdrop]; simp, by rw [hdrop, getLast?_concat]; rfl, ?_⟩
  have hlast : ((front ++ [node]).drop ((front ++ [node]).idxOf target)).getLast? = some node := by
    rw [getLast?_drop, if_neg (by omega), getLast?_concat]
  rw [isChain_append]
  exact ⟨h.chain.drop _, isChain_singleton _, by simpa [hlast, Below] using htarget⟩

/-- The rounds that are left for the nodes still to be met. -/
def toMeet (next : α → List α) (nodes : List α) (colour : Dict α Colour) : Nat :=
  (nodes.map fun node => if colour.get? node = none then (next node).length + 1 else 0).sum

theorem toMeet_put : toMeet next nodes (colour.put node c) ≤ toMeet next nodes colour := by
  refine sum_le_sum fun a _ => ?_
  rw [get?_put]
  split
  · simp
  · exact Nat.le_refl _

theorem toMeet_met (hm : node ∈ nodes) (hnone : colour.get? node = none) :
    toMeet next nodes (colour.put node c) + ((next node).length + 1) ≤ toMeet next nodes colour := by
  obtain ⟨before, after, rfl⟩ := append_of_mem hm
  have hbefore : toMeet next before (colour.put node c) ≤ toMeet next before colour := toMeet_put
  have hafter : toMeet next after (colour.put node c) ≤ toMeet next after colour := toMeet_put
  simp only [toMeet, map_append, map_cons, sum_append, sum_cons, get?_put_self,
    reduceCtorEq, if_false, hnone, if_true] at hbefore hafter ⊢
  omega

theorem toMeet_lt_rounds : toMeet next nodes colour < rounds next nodes := by
  have hsum : ∀ start, nodes.foldl (fun rounds node => rounds + (next node).length + 1) start =
      start + (nodes.map fun node => (next node).length + 1).sum := by
    induction nodes with
    | nil => simp
    | cons node nodes ih => intro start; rw [foldl_cons, ih]; simp; omega
  have hle : toMeet next nodes colour ≤ (nodes.map fun node => (next node).length + 1).sum := by
    refine sum_le_sum fun a _ => ?_
    split <;> omega
  rw [rounds, hsum]
  omega

/-- A search with a node on its path comes to a cycle, or to the round in which the node is black. -/
def Pops (next : α → List α) (nodes : List α) (turns : Nat) (colour : Dict α Colour) (node : α) (index : Nat)
    (stack : List (α × Nat)) (front : List α) (outcome : Outcome α) : Prop :=
  (∃ cycle, outcome = .cycle cycle ∧ Closes (Below next) cycle) ∨
  ∃ left colour', outcome = peek next left colour' stack front ∧ Inv next colour' front ∧
    colour'.get? node = some .black ∧ (∀ a, colour.get? a = some .black → colour'.get? a = some .black) ∧
    left < turns ∧
    toMeet next nodes colour' + turns ≤ toMeet next nodes colour + ((next node).length + 1 - index) + left

theorem peek_pops (hclosed : ∀ node ∈ nodes, ∀ target ∈ next node, target ∈ nodes) (hnode : node ∈ nodes)
    (h : Inv next colour (front ++ [node])) (hindex : index ≤ (next node).length)
    (hlooked : ∀ b ∈ (next node).take index, colour.get? b = some .black)
    (hturns : toMeet next nodes colour + ((next node).length + 1 - index) ≤ turns) :
    Pops next nodes turns colour node index stack front
      (peek next turns colour ((node, index) :: stack) (front ++ [node])) := by
  induction turns using Nat.strong_induction_on generalizing colour node index front stack with
  | _ turns ih =>
    obtain ⟨turns, rfl⟩ : ∃ n, turns = n + 1 := ⟨turns - 1, by omega⟩
    rw [peek]
    cases hnext : (next node)[index]? with
    | none =>
      have hput : toMeet next nodes (colour.put node .black) ≤ toMeet next nodes colour := toMeet_put
      rw [take_of_length_le (getElem?_eq_none_iff.mp hnext)] at hlooked
      exact .inr ⟨turns, _, by rw [dropLast_concat], h.pop hlooked, by simp,
        fun _ ha => black_put (.inr rfl) ha, by omega, by omega⟩
    | some target =>
      have hlt : index < (next node).length := (List.getElem?_eq_some_iff.mp hnext).1
      have hm : target ∈ next node := List.mem_of_getElem? hnext
      -- what comes of it once the target is black
      have honward : ∀ left colour₁, left ≤ turns → Inv next colour₁ (front ++ [node]) →
          colour₁.get? target = some .black →
          (∀ a, colour.get? a = some .black → colour₁.get? a = some .black) →
          toMeet next nodes colour₁ + turns ≤ toMeet next nodes colour + left →
          Pops next nodes (turns + 1) colour node index stack front
            (peek next left colour₁ ((node, index + 1) :: stack) (front ++ [node])) := by
        intro left colour₁ hless h₁ htarget hkeeps hleft
        refine (ih left (by omega) hnode h₁ hlt (fun b hb => ?_) (by omega)).imp_right ?_
        · rw [take_add_one, hnext] at hb
          rcases List.mem_append.mp hb with hb | hb
          · exact hkeeps b (hlooked b hb)
          · obtain rfl : b = target := by simpa using hb
            exact htarget
        · rintro ⟨last, colour₂, heq, h₂, hblack, hkeeps', hlast, hsum⟩
          exact ⟨last, colour₂, heq, h₂, hblack, fun a ha => hkeeps' a (hkeeps a ha), by omega, by omega⟩
      cases hcolour : colour.get? target with
      | none =>
        have hmet : toMeet next nodes (colour.put target .grey) + ((next target).length + 1) ≤
            toMeet next nodes colour := toMeet_met (hclosed node hnode target hm) hcolour
        simp only [hcolour]
        have hchild : Pops next nodes turns (colour.put target .grey) target 0 ((node, index + 1) :: stack)
            (front ++ [node]) _ :=
          ih turns (by omega) (hclosed node hnode target hm) (h.push hm) (Nat.zero_le _) (by simp) (by omega)
        rcases hchild with hcycle | ⟨left, colour₁, heq, h₁, htarget, hkeeps, hleft, hsum⟩
        · exact .inl hcycle
        · rw [heq]
          exact honward left colour₁ (by omega) h₁ htarget
            (fun a ha => hkeeps a (black_put (.inl hcolour) ha)) (by omega)
      | some c =>
        cases c with
        | grey =>
          simp only [hcolour]
          exact .inl ⟨_, rfl, h.closes hm hcolour⟩
        | black =>
          simp only [hcolour]
          exact honward turns colour (Nat.le_refl _) h hcolour (fun _ ha => ha) (Nat.le_refl _)

/-- A search of some nodes ends with a cycle, or with every one of them black. -/
def Ends (next : α → List α) (colour : Dict α Colour) (rest : List α) (outcome : Outcome α) : Prop :=
  (∃ cycle, outcome = .cycle cycle ∧ Closes (Below next) cycle) ∨
  ∃ colour', outcome = .finished colour' ∧ Inv next colour' [] ∧ (∀ a ∈ rest, colour'.get? a = some .black) ∧
    ∀ a, colour.get? a = some .black → colour'.get? a = some .black

theorem Ends.cons (h : Ends next colour₁ rest outcome) (hblack : colour₁.get? origin = some .black)
    (hkeeps : ∀ a, colour.get? a = some .black → colour₁.get? a = some .black) :
    Ends next colour (origin :: rest) outcome := by
  refine h.imp_right ?_
  rintro ⟨colour', heq, h', hall, hkeeps'⟩
  exact ⟨colour', heq, h', List.forall_mem_cons.mpr ⟨hkeeps' _ hblack, hall⟩, fun a ha => hkeeps' a (hkeeps a ha)⟩

theorem explore_ends (hclosed : ∀ node ∈ nodes, ∀ target ∈ next node, target ∈ nodes)
    (hrest : ∀ node ∈ rest, node ∈ nodes) (h : Inv next colour []) :
    Ends next colour rest (explore next (rounds next nodes) rest colour) := by
  induction rest generalizing colour with
  | nil => exact .inr ⟨colour, rfl, h, by simp, fun _ ha => ha⟩
  | cons origin rest ih =>
    obtain ⟨horigin, hrest⟩ := List.forall_mem_cons.mp hrest
    rw [explore]
    split
    case isTrue hmet =>
      obtain ⟨c, hc⟩ := Option.isSome_iff_exists.mp hmet
      cases c with
      | grey => simpa using h.grey_path origin hc
      | black => exact (ih hrest h).cons hc fun _ ha => ha
    case isFalse hnone =>
      rw [Bool.not_eq_true, Option.isSome_eq_false_iff, Option.isNone_iff_eq_none] at hnone
      have hmet : toMeet next nodes (colour.put origin .grey) + ((next origin).length + 1) ≤
          toMeet next nodes colour := toMeet_met horigin hnone
      have hlt : toMeet next nodes colour < rounds next nodes := toMeet_lt_rounds
      have hpops : Pops next nodes (rounds next nodes) (colour.put origin .grey) origin 0 [] [] _ :=
        peek_pops hclosed horigin (h.meet (isChain_singleton _)) (Nat.zero_le _) (by simp) (by omega)
      rw [nil_append] at hpops
      rcases hpops with ⟨cycle, heq, hcloses⟩ | ⟨left, colour₁, heq, h₁, hblack, hkeeps, -, -⟩
      · rw [heq]
        exact .inl ⟨cycle, rfl, hcloses⟩
      · have hfinished : peek next left colour₁ [] [] = .finished colour₁ := by cases left <;> rfl
        rw [heq, hfinished]
        exact (ih hrest h₁).cons hblack fun a ha => hkeeps a (black_put (.inl hnone) ha)

-- The search decides

omit [DecidableEq α] in
theorem Closes.transGen (h : Closes below cycle) : ∃ a, Relation.TransGen below a a := by
  obtain ⟨hlong, hback, hchain⟩ := h
  rcases cycle with - | ⟨a, - | ⟨b, rest⟩⟩
  · simp at hlong
  · simp at hlong
  · obtain ⟨hab, hrest⟩ := List.isChain_cons_cons.mp hchain
    have hlast : (b :: rest).getLast (cons_ne_nil _ _) = a := by
      simpa [getLast?_eq_getLast_of_ne_nil] using hback
    have hround : Relation.TransGen (fun a b => below b a) a a :=
      .head' hab (relationReflTransGen_of_exists_isChain_cons rest hrest hlast)
    exact ⟨a, Relation.transGen_swap.mp hround⟩

def Outcome.found : Outcome α → Option (List α)
  | .finished _ => none
  | .cycle nodes => some nodes
  | .exhausted => some []

/-- Nothing is found exactly when there is no cycle, and what is found is one. -/
structure Decides (below : α → α → Prop) (found : Option (List α)) : Prop where
  none_iff : found = none ↔ ∀ a, ¬ Relation.TransGen below a a
  closes : ∀ cycle, found = some cycle → Closes below cycle

theorem explore_decides (hclosed : ∀ node ∈ nodes, ∀ target ∈ next node, target ∈ nodes)
    (houtside : ∀ a, a ∉ nodes → next a = []) :
    Decides (Below next) (explore next (rounds next nodes) nodes .empty).found := by
  have hinv : Inv next .empty [] := ⟨by simp, by simp, .nil⟩
  rcases explore_ends hclosed (fun _ h => h) hinv with
    ⟨cycle, heq, hcloses⟩ | ⟨colour, heq, h, hall, -⟩
  · rw [heq]
    obtain ⟨a, ha⟩ := hcloses.transGen
    exact ⟨⟨fun h => (by cases h), fun h => absurd ha (h a)⟩, fun _ h => Option.some.inj h ▸ hcloses⟩
  · rw [heq]
    refine ⟨⟨fun _ a hcycle => ?_, fun _ => rfl⟩, fun _ h => by cases h⟩
    by_cases ha : a ∈ nodes
    · exact (h.black_acc a (hall a ha)).transGen.rec (motive := fun a _ => ¬ Relation.TransGen (Below next) a a)
        (fun x _ ih hx => ih x hx hx) hcycle
    · obtain ⟨b, -, hb⟩ := Relation.TransGen.tail'_iff.mp hcycle
      simp [Below, houtside a ha] at hb

end Karajan.Dfs
