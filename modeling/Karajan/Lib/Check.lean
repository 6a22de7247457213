import Mathlib.Data.List.Basic

/-!
# Checks that may refuse

A check is a computation in `Except ε`: it returns what it read, or refuses
with the reason. The laws below read the success of a composed check as the
success of each of its parts, which is how every proof about a checker here
goes.
-/

namespace Karajan.Check

open List

def ensure (b : Bool) (e : ε) : Except ε Unit := if b then .ok () else .error e

def need (o : Option α) (e : ε) : Except ε α :=
  match o with
  | some a => .ok a
  | none => .error e

-- Reading a success

theorem need_ok : need o (e : ε) = .ok a ↔ o = some a := by
  cases o with
  | none | some b => simp [need]

theorem ensure_ok : ensure b (e : ε) = .ok u ↔ b = true := by
  cases b with
  | false | true => simp [ensure]

theorem bind_ok {next : α → Except ε β} : (first >>= next) = .ok b ↔ ∃ a, first = .ok a ∧ next a = .ok b := by
  constructor
  · intro h
    cases first with
    | error e => exact nomatch h
    | ok a => exact ⟨a, rfl, h⟩
  · rintro ⟨a, rfl, h⟩
    exact h

theorem map_ok {first : Except ε α} {f : α → β} : (f <$> first) = .ok b ↔ ∃ a, first = .ok a ∧ f a = b := by
  cases first <;> simp [Functor.map, Except.map]

@[elab_as_elim]
theorem map_keeps {P : τ → Prop} {f : β → γ × τ} {x : Except ε β} (h : f <$> x = .ok (r, t))
    (hx : ∀ b, x = .ok b → P (f b).2) : P t := by
  obtain ⟨b, hb, heq⟩ := map_ok.mp h
  have hkept := hx b hb
  rwa [heq] at hkept

theorem pure_ok : (pure a : Except ε α) = .ok b ↔ a = b := Except.ok.injEq a b ▸ Iff.rfl

theorem pair_ok : (pure (a, b) : Except ε (α × β)) = .ok (a', b') ↔ a = a' ∧ b = b' := by
  rw [pure_ok, Prod.mk.injEq]

theorem bind_error {next : α → Except ε β} :
    (first >>= next) = .error e ↔ first = .error e ∨ ∃ a, first = .ok a ∧ next a = .error e := by
  cases first with
  | error e' | ok a => simp [Bind.bind, Except.bind]

theorem ensure_error : ensure b (e : ε) = (.error e' : Except ε Unit) ↔ b = false ∧ e = e' := by
  cases b with
  | false | true => simp [ensure]

theorem need_error : need o (e : ε) = .error e' ↔ o = none ∧ e = e' := by
  cases o with
  | none | some a => simp [need]

@[simp] theorem ok_bind (a : α) (f : α → Except ε β) : (.ok a : Except ε α) >>= f = f a := rfl

@[simp] theorem error_bind (e : ε) (f : α → Except ε β) :
    (.error e : Except ε α) >>= f = .error e := rfl

-- Lists of checks

def each (f : α → Except ε β) : List α → Except ε (List β)
  | [] => .ok []
  | a :: rest => do
    let b ← f a
    let bs ← each f rest
    return b :: bs

section
variable {f : α → Except ε β}

theorem each_cons_ok :
    each f (a :: l) = .ok bs ↔ ∃ b rest, f a = .ok b ∧ each f l = .ok rest ∧ bs = b :: rest := by
  simp only [each, bind_ok, pure_ok]
  constructor
  · rintro ⟨b, hb, rest, hr, rfl⟩; exact ⟨b, rest, hb, hr, rfl⟩
  · rintro ⟨b, rest, hb, hr, rfl⟩; exact ⟨b, hb, rest, hr, rfl⟩

theorem each_ok (h : each f l = .ok bs) : ∀ a ∈ l, ∃ b, f a = .ok b ∧ b ∈ bs := by
  induction l generalizing bs with
  | nil => simp
  | cons x l ih =>
    obtain ⟨b, rest, hb, hr, rfl⟩ := each_cons_ok.mp h
    intro a ha
    rcases List.mem_cons.mp ha with rfl | ha
    · exact ⟨b, hb, by simp⟩
    · obtain ⟨c, hc, hm⟩ := ih hr a ha
      exact ⟨c, hc, mem_cons_of_mem _ hm⟩

theorem each_mem (h : each f l = .ok bs) : ∀ b ∈ bs, ∃ a ∈ l, f a = .ok b := by
  induction l generalizing bs with
  | nil =>
    cases h
    simp
  | cons x l ih =>
    obtain ⟨b, rest, hb, hr, rfl⟩ := each_cons_ok.mp h
    intro c hc
    rcases List.mem_cons.mp hc with rfl | hc
    · exact ⟨x, by simp, hb⟩
    · obtain ⟨a, ha, hf⟩ := ih hr c hc
      exact ⟨a, mem_cons_of_mem _ ha, hf⟩

theorem each_forall₂ : each f l = .ok bs ↔ List.Forall₂ (fun a b => f a = .ok b) l bs := by
  induction l generalizing bs with
  | nil =>
    cases bs with
    | nil => exact ⟨fun _ => .nil, fun _ => rfl⟩
    | cons => exact ⟨fun h => (nomatch h), fun h => (nomatch h)⟩
  | cons a l ih =>
    rw [each_cons_ok]
    constructor
    · rintro ⟨b, rest, hb, hr, rfl⟩
      exact .cons hb (ih.mp hr)
    · rintro (_ | ⟨hb, hr⟩)
      exact ⟨_, _, hb, ih.mpr hr, rfl⟩

end

theorem each_ok_id {f : α → Except ε α} (hf : ∀ a b, f a = .ok b → b = a) (h : each f l = .ok bs) : bs = l := by
  induction l generalizing bs with
  | nil => cases h; rfl
  | cons x l ih =>
    obtain ⟨b, rest, hb, hr, rfl⟩ := each_cons_ok.mp h
    rw [hf x b hb, ih hr]

theorem each_mono {f g : α → Except ε β} (himp : ∀ a b, f a = .ok b → g a = .ok b)
    (h : each f l = .ok bs) : each g l = .ok bs := by
  induction l generalizing bs with
  | nil => exact h
  | cons a l ih =>
    obtain ⟨b, rest, hb, hr, rfl⟩ := each_cons_ok.mp h
    exact each_cons_ok.mpr ⟨b, rest, himp a b hb, ih hr, rfl⟩

theorem each_map {f : α → Except ε β} (h : ∀ a ∈ l, f a = .ok (g a)) : each f l = .ok (l.map g) := by
  induction l with
  | nil => rfl
  | cons a l ih =>
    have hrest : each f l = .ok (l.map g) := ih fun b hb => h b (mem_cons_of_mem _ hb)
    exact each_cons_ok.mpr ⟨g a, l.map g, h a (by simp), hrest, rfl⟩

theorem each_need {f : α → Option β} {e : ε} (h : ∀ a ∈ l, ∃ b, f a = some b) :
    each (fun a => need (f a) e) l = .ok (l.filterMap f) := by
  induction l with
  | nil => rfl
  | cons a l ih =>
    obtain ⟨b, hb⟩ := h a (by simp)
    rw [filterMap_cons_some hb]
    exact each_cons_ok.mpr ⟨b, _, need_ok.mpr hb, ih fun c hc => h c (mem_cons_of_mem _ hc), rfl⟩

theorem each_length {f : α → Except ε β} (h : each f l = .ok bs) : bs.length = l.length := by
  induction l generalizing bs with
  | nil => cases h; rfl
  | cons a l ih =>
    obtain ⟨b, rest, -, hr, rfl⟩ := each_cons_ok.mp h
    simp [ih hr]

theorem ok_of_isOk {x : Except ε α} (h : x.isOk = true) : ∃ a, x = .ok a := by
  cases x with
  | ok a => exact ⟨a, rfl⟩
  | error => cases h

theorem ok_of_map {x : Except ε α} {f : α → β} (h : x.toOption.map f = some b) : ∃ a, x = .ok a ∧ f a = b := by
  cases x with
  | ok a => exact ⟨a, rfl, by simpa [Except.toOption] using h⟩
  | error => cases h

theorem foldlM_keeps {l : List α} {f : β → α → Except ε β} {I : β → Prop}
    (round : ∀ b a b', a ∈ l → I b → f b a = .ok b' → I b') (h : l.foldlM f b = .ok b') (h0 : I b) : I b' := by
  induction l generalizing b with
  | nil => simp only [foldlM_nil, pure_ok] at h; exact h ▸ h0
  | cons a l ih =>
    simp only [foldlM_cons, bind_ok] at h
    obtain ⟨c, hc, hrest⟩ := h
    exact ih (fun b a b' ha => round b a b' (mem_cons_of_mem _ ha)) hrest
      (round b a c (by simp) h0 hc)

theorem foldlM_suffix {f : β → α → Except ε β} {I : List α → β → Prop}
    (round : ∀ a rest b b', I (a :: rest) b → f b a = .ok b' → I rest b')
    (h : l.foldlM f b = .ok b') (h0 : I l b) : I [] b' := by
  induction l generalizing b with
  | nil => simp only [foldlM_nil, pure_ok] at h; exact h ▸ h0
  | cons a l ih =>
    simp only [foldlM_cons, bind_ok] at h
    obtain ⟨c, hc, hrest⟩ := h
    exact ih hrest (round a l b c h0 hc)

/-- A loop that went through took each of its rounds, between the rounds before it
and the rounds after it. -/
theorem foldlM_split {f : β → α → Except ε β} (ha : a ∈ l) (h : l.foldlM f b = .ok b') :
    ∃ before after c c', l = before ++ a :: after ∧ before.foldlM f b = .ok c ∧ f c a = .ok c' ∧
      after.foldlM f c' = .ok b' := by
  obtain ⟨before, after, rfl⟩ := append_of_mem ha
  simp only [foldlM_append, foldlM_cons, bind_ok] at h
  obtain ⟨c, hbefore, c', hround, hafter⟩ := h
  exact ⟨before, after, c, c', rfl, hbefore, hround, hafter⟩

-- Reading a refusal

def Raises (p : ε → Prop) (check : Except ε α) : Prop := ∀ e, check = .error e → p e

variable {p : ε → Prop}

theorem Raises.ok : Raises p (.ok a : Except ε α) := fun _ h => nomatch h

theorem Raises.pure : Raises p (Pure.pure a : Except ε α) := Raises.ok

theorem Raises.error (h : p e) : Raises p (.error e : Except ε α) := by
  rintro e' ⟨⟩
  exact h

theorem Raises.ensure_false (h : b = false → p e) : Raises p (Check.ensure b e) := by
  cases b with
  | true => exact .ok
  | false => exact .error (h rfl)

theorem Raises.ensure (h : p e) : Raises p (Check.ensure b e) := .ensure_false fun _ => h

theorem Raises.need {o : Option α} (h : p e) : Raises p (Check.need o e) := by
  cases o with
  | none => exact .error h
  | some => exact .ok

theorem Raises.bind {first : Except ε α} {next : α → Except ε β} (hfirst : Raises p first)
    (hnext : ∀ a, Raises p (next a)) : Raises p (first >>= next) := by
  cases first with
  | error e => exact .error (hfirst e rfl)
  | ok a => exact hnext a

theorem Raises.each {f : α → Except ε β} (h : ∀ a, Raises p (f a)) : Raises p (each f l) := by
  induction l with
  | nil => exact .ok
  | cons a l ih => exact (h a).bind fun b => ih.bind fun bs => .pure

end Karajan.Check

-- Checks that stop early

namespace Karajan.Check

variable {f : α → Except ε Bool} {l : List α}

theorem allM_true : l.allM f = .ok true ↔ ∀ a ∈ l, f a = .ok true := by
  induction l with
  | nil => simp [List.allM, pure_ok]
  | cons a l ih =>
    simp only [List.allM, bind_ok, List.forall_mem_cons]
    constructor
    · rintro ⟨b, hb, hrest⟩
      cases b with
      | true => exact ⟨hb, ih.mp hrest⟩
      | false => simp [pure_ok] at hrest
    · rintro ⟨ha, hrest⟩
      exact ⟨true, ha, ih.mpr hrest⟩

theorem anyM_false : l.anyM f = .ok false ↔ ∀ a ∈ l, f a = .ok false := by
  induction l with
  | nil => simp [List.anyM, pure_ok]
  | cons a l ih =>
    simp only [List.anyM, bind_ok, List.forall_mem_cons]
    constructor
    · rintro ⟨b, hb, hrest⟩
      cases b with
      | true => simp [pure_ok] at hrest
      | false => exact ⟨hb, ih.mp hrest⟩
    · rintro ⟨ha, hrest⟩
      exact ⟨false, ha, ih.mpr hrest⟩

theorem anyM_true (h : l.anyM f = .ok true) : ∃ before a after, l = before ++ a :: after ∧
    (∀ b ∈ before, f b = .ok false) ∧ f a = .ok true := by
  induction l with
  | nil => simp [List.anyM, pure_ok] at h
  | cons a l ih =>
    simp only [List.anyM, bind_ok] at h
    obtain ⟨b, hb, hrest⟩ := h
    cases b with
    | true => exact ⟨[], a, l, rfl, by simp, hb⟩
    | false =>
      obtain ⟨before, c, after, rfl, hbefore, hc⟩ := ih hrest
      exact ⟨a :: before, c, after, rfl, List.forall_mem_cons.mpr ⟨hb, hbefore⟩, hc⟩

theorem anyM_of_reached (hbefore : ∀ b ∈ before, ∃ x, f b = .ok x) (ha : f a = .ok true) :
    (before ++ a :: after).anyM f = .ok true := by
  induction before with
  | nil => exact bind_ok.mpr ⟨true, ha, rfl⟩
  | cons b before ih =>
    obtain ⟨⟨x, hx⟩, hrest⟩ := List.forall_mem_cons.mp hbefore
    refine bind_ok.mpr ⟨x, hx, ?_⟩
    cases x with
    | true => rfl
    | false => exact ih hrest

end Karajan.Check

-- Visits of a store

namespace Karajan

def Visit (σ : Type u) (ε : Type v) (α : Type w) := σ → Except ε α × σ

namespace Visit

variable {σ : Type u} {ε : Type v} {α β : Type w}

def bind (x : Visit σ ε α) (next : α → Visit σ ε β) : Visit σ ε β := fun s =>
  match x s with
  | (.ok a, t) => next a t
  | (.error e, t) => (.error e, t)

instance : Monad (Visit σ ε) where
  pure a := fun s => (.ok a, s)
  bind := Visit.bind

def lift (r : Except ε α) : Visit σ ε α := fun s => (r, s)

/-- From the state: what is returned and left is `Q`, and what a refusal leaves is `E`. -/
def Triple (x : Visit σ ε α) (s : σ) (Q : α → σ → Prop) (E : σ → Prop) : Prop :=
  match x s with
  | (.ok a, t) => Q a t
  | (.error _, t) => E t

section
variable {s t : σ}

theorem Triple.pure (h : Q a s) : Triple (Pure.pure a : Visit σ ε α) s Q E := h

theorem Triple.lift {r : Except ε α} (hok : ∀ a, r = .ok a → Q a s) (herror : E s) :
    Triple (Visit.lift r) s Q E := by
  unfold Triple Visit.lift
  cases r with
  | ok a => exact hok a rfl
  | error e => exact herror

theorem Triple.bind {x : Visit σ ε α} {next : α → Visit σ ε β} {R : β → σ → Prop}
    (hx : Triple x s Q E) (hnext : ∀ a t, Q a t → Triple (next a) t R E) : Triple (x >>= next) s R E := by
  show Triple (Visit.bind x next) s R E
  unfold Triple at hx
  rcases h : x s with ⟨r, m⟩
  rw [h] at hx
  cases r with
  | error e => simpa [Triple, Visit.bind, h] using hx
  | ok a => simpa [Triple, Visit.bind, h] using hnext a m hx

theorem Triple.lift_bind {r : Except ε α} {next : α → Visit σ ε β} {R : β → σ → Prop} (herror : E s)
    (hnext : ∀ a, r = .ok a → Triple (next a) s R E) : Triple (Visit.lift r >>= next) s R E :=
  .bind (Q := fun a t => r = .ok a ∧ t = s) (.lift (fun _ ha => ⟨ha, rfl⟩) herror) <| by
    rintro a t ⟨ha, rfl⟩
    exact hnext a ha

theorem Triple.mono {x : Visit σ ε α} (h : Triple x s Q E) (hQ : ∀ a t, Q a t → Q' a t)
    (hE : ∀ t, E t → E' t) : Triple x s Q' E' := by
  unfold Triple at h ⊢
  rcases hx : x s with ⟨r, m⟩
  rw [hx] at h
  cases r with
  | error e => exact hE m h
  | ok a => exact hQ a m h

theorem Triple.left {x : Visit σ ε α} (h : Triple x s Q E) (hQ : ∀ a t, Q a t → E t) : E (x s).2 := by
  unfold Triple at h
  rcases hx : x s with ⟨r, m⟩
  rw [hx] at h
  cases r with
  | error e => exact h
  | ok a => exact hQ a m h

end

end Visit

end Karajan

-- Effects that stay

namespace Karajan

structure Trace (η : Type u) (ε : Type v) (α : Type w) where
  effects : List η
  result : Except ε α

namespace Trace

variable {η : Type u} {ε : Type v} {α β : Type w}

def bind (x : Trace η ε α) (next : α → Trace η ε β) : Trace η ε β :=
  match x.result with
  | .ok a => ⟨x.effects ++ (next a).effects, (next a).result⟩
  | .error e => ⟨x.effects, .error e⟩

instance : Monad (Trace η ε) where
  pure a := ⟨[], .ok a⟩
  bind := Trace.bind

def emit (e : η) : Trace η ε PUnit := ⟨[e], .ok ⟨⟩⟩

def lift (result : Except ε α) : Trace η ε α := ⟨[], result⟩

@[simp] theorem pure_effects : (pure a : Trace η ε α).effects = [] := rfl

@[simp] theorem emit_effects : (emit e : Trace η ε PUnit).effects = [e] := rfl

@[simp] theorem emit_result : (emit e : Trace η ε PUnit).result = .ok ⟨⟩ := rfl

@[simp] theorem lift_effects : (lift r : Trace η ε α).effects = [] := rfl

@[simp] theorem lift_result : (lift r : Trace η ε α).result = r := rfl

section
variable {next : α → Trace η ε β}

theorem bind_ok :
    (x >>= next).result = .ok b ↔ ∃ a, x.result = .ok a ∧ (next a).result = .ok b := by
  show (Trace.bind x next).result = .ok b ↔ _
  unfold Trace.bind
  cases x.result <;> simp

theorem mem_bind :
    e ∈ (x >>= next).effects ↔ e ∈ x.effects ∨ ∃ a, x.result = .ok a ∧ e ∈ (next a).effects := by
  show e ∈ (Trace.bind x next).effects ↔ _
  unfold Trace.bind
  cases x.result <;> simp

theorem mem_lift_bind :
    e ∈ (lift r >>= next).effects ↔ ∃ a, r = .ok a ∧ e ∈ (next a).effects := by
  rw [mem_bind]
  simp

end

theorem mem_emit_bind {next : PUnit → Trace η ε β} :
    e ∈ (emit x >>= next).effects ↔ e = x ∨ e ∈ (next ⟨⟩).effects := by
  rw [mem_bind]
  refine or_congr (by simp) ⟨?_, fun h => ⟨⟨⟩, rfl, h⟩⟩
  rintro ⟨_, -, h⟩
  exact h

section
variable {ι : Type x} {l : List ι} {f : α → ι → Trace η ε α} {I : α → Prop}

theorem foldlM_keeps (hstep : ∀ a i a', i ∈ l → I a → (f a i).result = .ok a' → I a')
    (h : (l.foldlM f a).result = .ok a') (ha : I a) : I a' := by
  induction l generalizing a with
  | nil => cases h; exact ha
  | cons i rest ih =>
    obtain ⟨next, hnext, hrest⟩ := bind_ok.mp h
    exact ih (fun a i a' hi => hstep a i a' (List.mem_cons_of_mem _ hi)) hrest
      (hstep a i next List.mem_cons_self ha hnext)

theorem foldlM_total (hstep : ∀ a i, i ∈ l → I a → ∃ a', (f a i).result = .ok a' ∧ I a') (ha : I a) :
    ∃ a', (l.foldlM f a).result = .ok a' ∧ I a' := by
  induction l generalizing a with
  | nil => exact ⟨a, rfl, ha⟩
  | cons i rest ih =>
    obtain ⟨next, hnext, hI⟩ := hstep a i List.mem_cons_self ha
    obtain ⟨a', hrest, ha'⟩ := ih (fun a i hi => hstep a i (List.mem_cons_of_mem _ hi)) hI
    refine ⟨a', ?_, ha'⟩
    exact bind_ok.mpr ⟨next, hnext, hrest⟩

theorem mem_foldlM (hstep : ∀ a i a', i ∈ l → I a → (f a i).result = .ok a' → I a') (ha : I a)
    (h : e ∈ (l.foldlM f a).effects) : ∃ a' i, i ∈ l ∧ I a' ∧ e ∈ (f a' i).effects := by
  induction l generalizing a with
  | nil => simp at h
  | cons i rest ih =>
    rcases mem_bind.mp h with hnow | ⟨next, hnext, hlater⟩
    · exact ⟨a, i, List.mem_cons_self, ha, hnow⟩
    · obtain ⟨a', j, hj, ha', he⟩ := ih (fun a i a' hi => hstep a i a' (List.mem_cons_of_mem _ hi))
        (hstep a i next List.mem_cons_self ha hnext) hlater
      exact ⟨a', j, List.mem_cons_of_mem _ hj, ha', he⟩

end

end Trace

end Karajan
