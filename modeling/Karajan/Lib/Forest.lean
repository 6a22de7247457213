import Mathlib.Logic.Relation
import Karajan.Lib.Dict
import Mathlib.Data.List.Perm.Subperm

/-!
# Numbered chains

A table numbered from one, where every entry names its number's predecessor and
what the entry before it is known by. An entry is only ever added at the end.
-/

namespace Karajan.Chain

open Dict
variable {d : Dict Nat ν}

def Numbered (d : Dict Nat ν) (n : Nat) : Prop := ∀ k, k ∈ d.keys ↔ 1 ≤ k ∧ k ≤ n

/-- Every entry names the one before it. The first one names none. -/
def Linked (names : ν → Nat × μ) (known : Option ν → μ) (d : Dict Nat ν) : Prop :=
  ∀ k v, d.get? (k + 1) = some v → names v = (k, known (d.get? k))

theorem Numbered.zero (h : ∀ k, d.get? k = none) : Numbered d 0 := by
  intro k
  have hk := get?_eq_none.mp (h k)
  constructor
  · exact fun hm => absurd hm hk
  · omega

theorem Numbered.fresh (h : Numbered d n) : d.get? (n + 1) = none := by
  rw [get?_eq_none, h]
  omega

theorem Numbered.put (h : Numbered d n) : Numbered (d.put (n + 1) v) (n + 1) := by
  intro k
  rw [mem_keys_put, h]
  omega

theorem Linked.put {names : ν → Nat × μ} {known : Option ν → μ} (h : Linked names known d)
    (hn : Numbered d n) (hv : names v = (n, known (d.get? n))) : Linked names known (d.put (n + 1) v) := by
  intro k w hw
  rcases of_put hw with ⟨he, rfl⟩ | ⟨he, hw⟩
  · have hk : n = k := by omega
    rw [← hk, get?_put_of_ne (by omega)]
    exact hv
  · have hle := (hn (k + 1)).mp (Dict.mem_keys.mpr ⟨w, hw⟩)
    rw [get?_put_of_ne (by omega)]
    exact h k w hw

-- Following links

theorem ends {I stop : α → Prop} (rank : α → Nat) (bound : Nat)
    (next : ∀ a, I a → stop a ∨ ∃ b, link a b ∧ I b ∧ rank a < rank b)
    (bounded : ∀ a, I a → rank a ≤ bound) (ha : I a) : ∃ b, Relation.ReflTransGen link a b ∧ I b ∧ stop b := by
  induction hleft : bound - rank a using Nat.strongRecOn generalizing a with
  | ind left ih =>
    rcases next a ha with hstop | ⟨b, hlink, hb, hrank⟩
    · exact ⟨a, .refl, ha, hstop⟩
    · have hcloser : bound - rank b < left := by
        have hle := bounded b hb
        omega
      obtain ⟨last, hpath, hlast, hstop⟩ := ih _ hcloser hb rfl
      exact ⟨last, .head hlink hpath, hlast, hstop⟩

end Karajan.Chain

-- Rows linked to their parents

namespace Karajan.Forest

variable {parent : ν → Option κ}

section
variable [DecidableEq κ]

def ParentOf (parent : ν → Option κ) (rows : Dict κ ν) (row above : ν) : Prop :=
  ∃ k, parent row = some k ∧ rows.get? k = some above

def Ancestor (parent : ν → Option κ) (rows : Dict κ ν) : ν → ν → Prop := Relation.TransGen (ParentOf parent rows)

/-- One sweep over the rows: those whose parent is among the names join them. -/
def sweep (parent : ν → Option κ) (rows : List (κ × ν)) (names : List κ) : List κ :=
  rows.foldl
    (fun names (name, row) =>
      if names.contains name then names
      else
        match parent row with
        | some above => if names.contains above then name :: names else names
        | none => names)
    names

def sweepAll (parent : ν → Option κ) (rows : List (κ × ν)) : Nat → List κ → List κ
  | 0, names => names
  | sweeps + 1, names =>
    let wider := sweep parent rows names
    if wider.length = names.length then names else sweepAll parent rows sweeps wider

/-- A name and everything that derives from it. Each sweep that changes
something adds a row, so there are no more sweeps than rows. -/
def below (parent : ν → Option κ) (rows : Dict κ ν) (name : κ) : List κ :=
  sweepAll parent rows.entries (rows.entries.length + 1) [name]

end

-- Chains of stored rows

section
variable [DecidableEq κ] {rows : Dict κ ν} {row above : ν}

theorem Ancestor.stored (h : Ancestor parent rows row above) : ∃ k, rows.get? k = some above := by
  cases h with
  | single hp | tail _ hp => exact ⟨_, hp.choose_spec.2⟩

theorem Ancestor.induct {motive : ν → Prop} (h : Ancestor parent rows row above) (hrow : rows.get? k = some row)
    (single : ∀ k row, rows.get? k = some row → ParentOf parent rows row above → motive row)
    (head : ∀ k row middle, rows.get? k = some row → ParentOf parent rows row middle →
      motive middle → motive row) : motive row := by
  induction h using Relation.TransGen.head_induction_on generalizing k with
  | single hp => exact single k _ hrow hp
  | head hp _ ih =>
    obtain ⟨k', hlink, hget⟩ := hp
    exact head k _ _ hrow ⟨k', hlink, hget⟩ (ih hget)

theorem Ancestor.inherits {I : ν → Prop} (h : Ancestor parent rows row above) (hrow : rows.get? k = some row)
    (hstep : ∀ k row middle, rows.get? k = some row → ParentOf parent rows row middle →
      I row → I middle) (hi : I row) : I above := by
  refine h.induct (motive := fun row => I row → I above) hrow ?_ ?_ hi
  · intro k row hget hp
    exact hstep k row above hget hp
  · intro k row middle hget hp ih hi
    exact ih (hstep k row middle hget hp hi)

-- One sweep

variable {entries : List (κ × ν)} {names : List κ} {name : κ}

theorem sweep_cons (e : κ × ν) : sweep parent (e :: entries) names =
    sweep parent entries (sweep parent [e] names) := rfl

theorem sweep_one (parent : ν → Option κ) (names : List κ) (e : κ × ν) : (sweep parent [e] names = names ∧
      (e.1 ∈ names ∨ ∀ above, parent e.2 = some above → above ∉ names)) ∨
    (sweep parent [e] names = e.1 :: names ∧ e.1 ∉ names ∧
      ∃ above, parent e.2 = some above ∧ above ∈ names) := by
  simp only [sweep, List.foldl_cons, List.foldl_nil, List.contains_eq_mem, decide_eq_true_eq]
  split
  case isTrue hknown => exact .inl ⟨rfl, .inl hknown⟩
  case isFalse hnew =>
    split
    case h_1 above hparent =>
      split
      case isTrue hmem => exact .inr ⟨rfl, hnew, above, hparent, hmem⟩
      case isFalse hno =>
        refine .inl ⟨rfl, .inr fun above' hparent' => ?_⟩
        rw [hparent] at hparent'; cases hparent'
        exact hno
    case h_2 hparent =>
      refine .inl ⟨rfl, .inr fun above' hparent' => ?_⟩
      rw [hparent] at hparent'; cases hparent'

theorem suffix_sweep (parent : ν → Option κ) (entries : List (κ × ν)) (names : List κ) :
    names <:+ sweep parent entries names := by
  induction entries generalizing names with
  | nil => exact List.suffix_refl _
  | cons e entries ih =>
    rw [sweep_cons]
    rcases sweep_one parent names e with ⟨hsame, -⟩ | ⟨hadd, -⟩
    · rw [hsame]; exact ih names
    · rw [hadd]; exact (List.suffix_cons _ _).trans (ih _)

theorem sweep_closed (h : sweep parent entries names = names) (he : (name, row) ∈ entries)
    (hp : parent row = some above') (hm : above' ∈ names) : name ∈ names := by
  induction entries with
  | nil => cases he
  | cons e entries ih =>
    rw [sweep_cons] at h
    rcases sweep_one parent names e with ⟨hsame, hone⟩ | ⟨hadd, -⟩
    · rw [hsame] at h
      rcases List.mem_cons.mp he with rfl | he
      · rcases hone with hknown | hno
        · exact hknown
        · exact absurd hm (hno above' hp)
      · exact ih h he
    · -- what a sweep adds it keeps
      have hlength := (suffix_sweep parent entries (e.1 :: names)).length_le
      rw [hadd] at h
      rw [h, List.length_cons] at hlength
      omega

theorem sweep_keeps {I : κ → Prop} (hadd : ∀ name row above, (name, row) ∈ entries →
    parent row = some above → I above → I name) (hi : ∀ name ∈ names, I name) :
    ∀ name ∈ sweep parent entries names, I name := by
  induction entries generalizing names with
  | nil => exact hi
  | cons e entries ih =>
    have hrest : ∀ name row above, (name, row) ∈ entries → parent row = some above → I above →
        I name := fun name row above he => hadd name row above (List.mem_cons_of_mem _ he)
    rw [sweep_cons]
    rcases sweep_one parent names e with ⟨hsame, -⟩ | ⟨hone, -, above, hp, hm⟩
    · rw [hsame]; exact ih hrest hi
    · rw [hone]
      refine ih hrest fun name hname => ?_
      rcases List.mem_cons.mp hname with rfl | hname
      · exact hadd e.1 e.2 above List.mem_cons_self hp (hi above hm)
      · exact hi name hname

theorem nodup_sweep (h : names.Nodup) : (sweep parent entries names).Nodup := by
  induction entries generalizing names with
  | nil => exact h
  | cons e entries ih =>
    rw [sweep_cons]
    rcases sweep_one parent names e with ⟨hsame, -⟩ | ⟨hadd, hnew, -⟩
    · rw [hsame]; exact ih h
    · rw [hadd]; exact ih (List.nodup_cons.mpr ⟨hnew, h⟩)

-- All sweeps

theorem sweepAll_keeps {I : κ → Prop} (hadd : ∀ name row above, (name, row) ∈ entries →
    parent row = some above → I above → I name) (hi : ∀ name ∈ names, I name) :
    ∀ name ∈ sweepAll parent entries sweeps names, I name := by
  induction sweeps generalizing names with
  | zero => exact hi
  | succ sweeps ih =>
    simp only [sweepAll]
    split
    · exact hi
    · exact ih (sweep_keeps hadd hi)

theorem mem_sweepAll (h : name ∈ names) : name ∈ sweepAll parent entries sweeps names := by
  induction sweeps generalizing names with
  | zero => exact h
  | succ sweeps ih =>
    simp only [sweepAll]
    split
    · exact h
    · exact ih ((suffix_sweep _ _ _).subset h)

/-- Names that are rows, or the one the search began with, are no more than the
rows and one: while sweeps are left for each of them, the last one adds nothing. -/
theorem sweepAll_closed {start : κ} (hnodup : names.Nodup)
    (hrows : ∀ name ∈ names, name = start ∨ name ∈ entries.map Prod.fst)
    (hsweeps : entries.length + 2 ≤ sweeps + names.length) :
    sweep parent entries (sweepAll parent entries sweeps names) = sweepAll parent entries sweeps names := by
  induction sweeps generalizing names with
  | zero =>
    have hsub : names ⊆ start :: entries.map Prod.fst := fun name hm => by
      simpa using hrows name hm
    have hlength := (List.subperm_of_subset hnodup hsub).length_le
    simp only [List.length_cons, List.length_map] at hlength
    omega
  | succ sweeps ih =>
    simp only [sweepAll]
    split
    case isTrue hsame => exact ((suffix_sweep _ _ _).eq_of_length hsame.symm).symm
    case isFalse hwider =>
      have hgrown := (suffix_sweep parent entries names).length_le
      refine ih (nodup_sweep hnodup) ?_ (by omega)
      refine sweep_keeps (fun name row _ he _ _ => .inr ?_) hrows
      exact List.mem_map_of_mem (f := Prod.fst) he

-- What derives from a row

variable {rows : Dict κ ν}

theorem mem_below_self : name ∈ below parent rows name := mem_sweepAll (by simp)

theorem mem_below_of_parent (hrow : rows.get? name = some row) (hp : parent row = some above')
    (hm : above' ∈ below parent rows start) : name ∈ below parent rows start := by
  refine sweep_closed ?_ (Dict.get?_eq_some.mp hrow) hp hm
  exact sweepAll_closed (by simp) (fun name hname => .inl (by simpa using hname)) (by simp)

theorem mem_below (hstart : rows.get? start = some above) (h : name ∈ below parent rows start) :
    name = start ∨ ∃ row, rows.get? name = some row ∧ Ancestor parent rows row above := by
  refine sweepAll_keeps (I := fun name => name = start ∨
    ∃ row, rows.get? name = some row ∧ Ancestor parent rows row above) ?_ (by simp) name h
  intro name row link he hp hlink
  have hget := Dict.get?_eq_some.mpr he
  refine .inr ⟨row, hget, ?_⟩
  rcases hlink with rfl | ⟨middle, hmiddle, ha⟩
  · exact .single ⟨_, hp, hstart⟩
  · exact .head ⟨_, hp, hmiddle⟩ ha

end

end Karajan.Forest
