import Mathlib.Logic.Relation
import Mathlib.Data.List.Nodup
import Mathlib.Data.List.Range
import Mathlib.Data.List.Induction

/-!
# Runs of a system

A system takes one step at a time. `Path` is a run between two states whose
every step meets a condition, and `Reach` a run from an initial state. The
rules say once how an invariant goes through a run, so that each safety
result is an initial case and a step.
-/

namespace Karajan

structure System (σ : Type u) (α : Type v) where
  initial : σ → Prop
  step : σ → α → σ

namespace System

variable {M : System σ α} {ok ok' : σ → α → Prop}

/-- A run from one state to another, every step of which meets `ok`. -/
inductive Path (M : System σ α) (ok : σ → α → Prop) : σ → σ → Prop
  | refl : Path M ok s s
  | step : Path M ok s t → ok t a → Path M ok s (M.step t a)

def Reach (M : System σ α) (ok : σ → α → Prop) (s : σ) : Prop := ∃ i, M.initial i ∧ M.Path ok i s

def free : σ → α → Prop := fun _ _ => True

theorem Path.trans (h : M.Path ok s t) (h' : M.Path ok t u) : M.Path ok s u := by
  induction h' with
  | refl => exact h
  | step _ ha ih => exact .step ih ha

theorem Path.mono (himp : ∀ s a, ok s a → ok' s a) (h : M.Path ok s t) : M.Path ok' s t := by
  induction h with
  | refl => exact .refl
  | step _ ha ih => exact .step ih (himp _ _ ha)

theorem Path.keeps {I : σ → Prop} (hstep : ∀ s a, I s → ok s a → I (M.step s a))
    (h : M.Path ok s t) (hs : I s) : I t := by
  induction h with
  | refl => exact hs
  | step _ ha ih => exact hstep _ _ ih ha

theorem Path.relates {R : σ → σ → Prop} (hrefl : ∀ s, R s s)
    (htrans : ∀ s t u, R s t → R t u → R s u) (hstep : ∀ s a, ok s a → R s (M.step s a))
    (h : M.Path ok s t) : R s t := by
  induction h with
  | refl => exact hrefl _
  | step _ ha ih => exact htrans _ _ _ ih (hstep _ _ ha)

theorem Reach.init (h : M.initial s) : M.Reach ok s := ⟨s, h, .refl⟩

theorem Reach.path (h : M.Reach ok s) (hp : M.Path ok s t) : M.Reach ok t :=
  let ⟨i, hi, hs⟩ := h
  ⟨i, hi, hs.trans hp⟩

theorem Reach.step (h : M.Reach ok s) (ha : ok s a) : M.Reach ok (M.step s a) := h.path (.step .refl ha)

theorem Reach.mono (himp : ∀ s a, ok s a → ok' s a) (h : M.Reach ok s) : M.Reach ok' s :=
  let ⟨i, hi, hs⟩ := h
  ⟨i, hi, hs.mono himp⟩

theorem Reach.free (h : M.Reach ok s) : M.Reach System.free s := h.mono fun _ _ _ => trivial

theorem Reach.invariant {I : σ → Prop} (h : M.Reach ok s) (hinit : ∀ i, M.initial i → I i)
    (hstep : ∀ s a, I s → ok s a → I (M.step s a)) : I s :=
  let ⟨i, hi, hs⟩ := h
  hs.keeps hstep (hinit i hi)

theorem Reach.since {P Q : σ → Prop} (h : M.Reach ok s) (hinit : ∀ i, M.initial i → ¬ P i)
    (hstep : ∀ s a, M.Reach ok s → ok s a → P (M.step s a) → P s ∨ Q (M.step s a)) (hs : P s) :
    ∃ t, M.Reach ok t ∧ M.Path ok t s ∧ Q t := by
  obtain ⟨i, hi, hp⟩ := h
  induction hp with
  | refl => exact absurd hs (hinit _ hi)
  | @step s a hp ha ih =>
    have hr : M.Reach ok s := ⟨i, hi, hp⟩
    rcases hstep _ _ hr ha hs with hbefore | hnow
    · obtain ⟨t, ht, hts, hq⟩ := ih hbefore
      exact ⟨t, ht, .step hts ha, hq⟩
    · exact ⟨_, hr.step ha, .refl, hnow⟩

def run (M : System σ α) (s : σ) (as : List α) : σ := as.foldl M.step s

theorem run_cons : M.run s (a :: as) = M.run (M.step s a) as := rfl

/-- Every action of the list meets `ok` in the state it is taken in. -/
def Meets (M : System σ α) (ok : σ → α → Prop) : σ → List α → Prop
  | _, [] => True
  | s, a :: as => ok s a ∧ Meets M ok (M.step s a) as

instance decidableMeets [∀ s a, Decidable (ok s a)] : (s : σ) → (as : List α) → Decidable (M.Meets ok s as)
  | _, [] => .isTrue trivial
  | s, a :: as =>
    have := decidableMeets (M.step s a) as
    inferInstanceAs (Decidable (_ ∧ _))

theorem Path.of_run (h : M.Meets ok s as) : M.Path ok s (M.run s as) := by
  induction as generalizing s with
  | nil => exact .refl
  | cons a as ih => exact (Path.step .refl h.1).trans (ih h.2)

theorem Path.of_free_run : M.Path System.free s (M.run s as) := by
  apply Path.of_run
  induction as generalizing s with
  | nil => trivial
  | cons a as ih => exact ⟨trivial, ih⟩

theorem Reach.of_run (hi : M.initial i) (h : M.Meets ok i as) : M.Reach ok (M.run i as) := ⟨i, hi, .of_run h⟩

end System

end Karajan

-- A register written conditionally

namespace Karajan

/-- The values accepted so far, each at the revision it expected. -/
structure Register (α : Type u) (expects : α → Nat) where
  accepted : List α
  numbered : accepted.map expects = List.range accepted.length

namespace Register

variable {r r' : Register α expects}

def empty : Register α expects := ⟨[], rfl⟩

def revision (r : Register α expects) : Nat := r.accepted.length

def accept (r : Register α expects) (a : α) (h : expects a = r.revision) : Register α expects where
  accepted := r.accepted ++ [a]
  numbered := by simp [r.numbered, List.range_succ, h, revision]

def write (r : Register α expects) (a : α) : Register α expects :=
  if h : expects a = r.revision then r.accept a h else r

def system (α : Type u) (expects : α → Nat) : System (Register α expects) α where
  initial r := r = empty
  step := write

@[simp] theorem revision_accept (h : expects a = r.revision) :
    (r.accept a h).revision = r.revision + 1 := by simp [revision, accept]

theorem write_accepted (h : expects a = r.revision) : r.write a = r.accept a h := dif_pos h

theorem revision_le_write : r.revision ≤ (r.write a).revision := by
  unfold write
  split
  · simp
  · exact Nat.le_refl _

theorem eq_of_expects (ha : a ∈ r.accepted) (hb : b ∈ r.accepted) (h : expects a = expects b) : a = b := by
  have hnodup : (r.accepted.map expects).Nodup := r.numbered ▸ List.nodup_range
  exact List.inj_on_of_nodup_map hnodup ha hb h

theorem revision_le_path (h : (system α expects).Path ok r r') : r.revision ≤ r'.revision :=
  h.relates (R := fun r r' => r.revision ≤ r'.revision) (fun _ => Nat.le_refl _)
    (fun _ _ _ => Nat.le_trans) fun _ _ _ => revision_le_write

end Register

end Karajan

-- Histories

namespace Karajan

theorem nodup_snoc {l : List α} {f : α → β} (hl : (l.map f).Nodup) (h : ∀ b ∈ l, f b ≠ f a) :
    ((l ++ [a]).map f).Nodup := by
  rw [List.map_append, List.map_singleton, List.nodup_append]
  refine ⟨hl, List.nodup_singleton _, ?_⟩
  intro x hx y hy
  obtain ⟨b, hb, rfl⟩ := List.mem_map.mp hx
  rw [List.mem_singleton.mp hy]
  exact h b hb

theorem snoc_split {l before after : List α} (h : l ++ [a] = before ++ b :: after) :
    (∃ rest, l = before ++ b :: rest) ∨ (l = before ∧ a = b) := by
  rcases List.eq_nil_or_concat after with rfl | ⟨rest, z, rfl⟩
  · have hends := List.append_inj' h rfl
    exact .inr ⟨hends.1, by simpa using hends.2⟩
  · rw [List.concat_eq_append, ← List.cons_append, ← List.append_assoc] at h
    exact .inl ⟨rest, (List.append_inj' h rfl).1⟩

def Justified (J : List ε → ε → Prop) (log : List ε) : Prop :=
  ∀ before e after, log = before ++ e :: after → J before e

namespace Justified

variable {J : List ε → ε → Prop}

theorem nil : Justified J [] := by
  intro before e after h
  cases before <;> cases h

theorem snoc (h : Justified J log) (he : J log e) : Justified J (log ++ [e]) := by
  intro before e' after hlog
  rcases snoc_split hlog with ⟨rest, hrest⟩ | ⟨rfl, rfl⟩
  · exact h before e' rest hrest
  · exact he

theorem emitted (h : Justified J log) (he : ∀ e, o = some e → J log e) : Justified J (log ++ o.toList) := by
  cases o with
  | none => simpa using h
  | some e => exact h.snoc (he e rfl)

theorem of_mem (h : Justified J log) (hm : e ∈ log) : ∃ before, before <+: log ∧ J before e := by
  obtain ⟨before, after, rfl⟩ := List.append_of_mem hm
  exact ⟨before, List.prefix_append .., h before e after rfl⟩

theorem earlier {f g : ε → Option κ} (h : Justified J log) (hm : k ∈ log.filterMap f)
    (hJ : ∀ before e, J before e → f e = some k → k ∈ before.filterMap g) : k ∈ log.filterMap g := by
  obtain ⟨e, he, hk⟩ := List.mem_filterMap.mp hm
  obtain ⟨before, hbefore, hj⟩ := h.of_mem he
  obtain ⟨e', he', hk'⟩ := List.mem_filterMap.mp (hJ before e hj hk)
  exact List.mem_filterMap.mpr ⟨e', hbefore.subset he', hk'⟩

theorem nodup {key : ε → Option κ} (h : Justified J log)
    (hnew : ∀ before e k, J before e → key e = some k → k ∉ before.filterMap key) :
    (log.filterMap key).Nodup := by
  induction log using List.reverseRecOn with
  | nil => exact List.nodup_nil
  | append_singleton log e ih =>
    have hlog : Justified J log := fun before e' after heq =>
      h before e' (after ++ [e]) (by simp [heq])
    rw [List.filterMap_append]
    refine List.nodup_append'.mpr ⟨ih hlog, ?_, ?_⟩
    · cases hk : key e <;> simp [hk]
    · intro k hk hlast
      simp only [List.filterMap_cons, List.filterMap_nil] at hlast
      cases hkey : key e with
      | none => simp [hkey] at hlast
      | some k' =>
        simp only [hkey, List.mem_singleton] at hlast
        subst hlast
        exact hnew log e k (h log e [] rfl) hkey hk

end Justified

-- Systems with a history

namespace System

def traced (M : System σ α) (emit : σ → α → Option ε) : System (σ × List ε) α where
  initial p := M.initial p.1 ∧ p.2 = []
  step p a := (M.step p.1 a, p.2 ++ (emit p.1 a).toList)

end System

end Karajan
