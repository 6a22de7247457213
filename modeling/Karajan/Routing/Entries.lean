import Karajan.Routing.Reports

/-!
# The entries agree

A route, the check of a reserved profile and a membership are three ways to ask
about one profile. Of what stands against it the reserved check with its quota
sees as much as the route does; without its quota it misses what is about the
quota at the instant, and nothing else.
-/

namespace Karajan.Routing

open List
open Capacity (reasonIf)
open Check Listing

/-- The reason is about the quota at the instant of the snapshot. -/
def Reason.live : Reason → Bool
  | .concurrencyUnavailable | .accountCooldown | .exhaustionRequiresNewObservation
  | .poolLimitInconsistent _ | .quotaInsufficient _ | .observationStale _
  | .officialObservationRequired _ | .unknownQuotaNotAuthorized _ | .conservativeLimitExceeded _ =>
    true
  | _ => false

theorem mem_reasonIf {b : Bool} {r : α} : r ∈ reasonIf b x ↔ b = true ∧ r = x := by
  cases b <;> simp [reasonIf]

-- What is about the quota

theorem unknownReasons_live (h : reason ∈ unknownReasons account task pool as_of lead) : reason.live = true := by
  simp only [unknownReasons] at h
  split at h
  · rw [mem_singleton] at h
    exact h ▸ rfl
  · split at h
    · rw [mem_singleton] at h
      exact h ▸ rfl
    · exact (mem_reasonIf.mp h).2 ▸ rfl

theorem quotaReasons_live (h : reason ∈ quotaReasons account task estimate pool amount as_of lead) :
    reason.live = true := by
  simp only [quotaReasons, mem_append, mem_reasonIf] at h
  rcases h with (((⟨-, rfl⟩ | ⟨-, rfl⟩) | ⟨-, rfl⟩) | ⟨-, rfl⟩) | h
  · rfl
  · rfl
  · rfl
  · rfl
  · split at h
    · exact unknownReasons_live h
    · simp at h

theorem liveAccountReasons_live (h : reason ∈ liveAccountReasons account as_of lead) : reason.live = true := by
  simp only [liveAccountReasons, mem_append, mem_reasonIf] at h
  rcases h with (⟨-, rfl⟩ | ⟨-, rfl⟩) | ⟨-, rfl⟩ <;> rfl

/-- A check that looks at the quota adds to what stands against a profile what is live only. -/
def Drifts (held fresh : List Reason) : Prop :=
  held ⊆ fresh ∧ ∀ reason ∈ fresh, reason.live = true ∨ reason ∈ held

theorem Drifts.refl (l : List Reason) : Drifts l l := ⟨Subset.refl l, fun _ => .inr⟩

theorem Drifts.added {added : List Reason} (h : ∀ reason ∈ added, reason.live = true) :
    Drifts l (l ++ added) := by
  simp only [Drifts, List.subset_def, mem_append]
  grind

theorem Drifts.append (h : Drifts a b) (h' : Drifts a' b') : Drifts (a ++ a') (b ++ b') := by
  simp only [Drifts, List.subset_def, mem_append] at *
  grind

theorem Drifts.flatMap {l : List α} {f g : α → List Reason} (h : ∀ x, Drifts (f x) (g x)) : Drifts (l.flatMap f) (l.flatMap g) := by
  induction l with
  | nil => exact .refl []
  | cons x l ih => simpa only [flatMap_cons] using (h x).append ih

theorem checkPool_drifts :
    Drifts (checkPool task policy capacity account account_id estimate lead false pool_id).reasons
      (checkPool task policy capacity account account_id estimate lead true pool_id).reasons := by
  unfold checkPool
  cases capacity.pool? pool_id with
  | none => exact .refl _
  | some pool =>
    cases estimate.demands.get? pool_id with
    | none => exact .refl _
    | some demand => exact .added fun _ => quotaReasons_live

-- All reasons

theorem resourceReasons_drifts : Drifts (resourceReasons task policy capacity rule false key)
    (resourceReasons task policy capacity rule true key) := by
  unfold resourceReasons
  split
  · exact .refl _
  · dsimp only
    split
    · exact .refl _
    · rw [if_neg Bool.false_ne_true, if_pos rfl, append_nil]
      refine (Drifts.added fun _ => liveAccountReasons_live).append ?_
      split
      · exact .refl _
      · exact (Drifts.refl _).append (.flatMap fun _ => checkPool_drifts)

theorem candidateReasons_drifts : Drifts (candidateReasons L task policy capacity rule effective false key)
    (candidateReasons L task policy capacity rule effective true key) :=
  ((Drifts.refl _).append resourceReasons_drifts).append (.refl _)

theorem candidateReasons_live (h : reason ∈ candidateReasons L task policy capacity rule effective true key) :
    reason.live = true ∨ reason ∈ candidateReasons L task policy capacity rule effective false key :=
  candidateReasons_drifts.2 reason h

-- The three entries

theorem Allowed.held (h : Allowed L task policy capacity true p) : Allowed L task policy capacity false p := by
  obtain ⟨effective, rule, ho, hp, hnone⟩ := h
  refine ⟨effective, rule, ho, hp, List.eq_nil_iff_forall_not_mem.mpr fun reason hr => ?_⟩
  have hr' := candidateReasons_drifts.1 hr
  simp [hnone] at hr'

theorem Allowed.member (h : Allowed L task policy capacity true p) :
    ∃ effective rule, Opens L task policy effective rule ∧ p ∈ stageRefs task policy rule ∧
      staticReasons L task policy policy.rulebook capacity.as_of rule effective
        (stageGroups task rule) p = [] := by
  obtain ⟨effective, rule, ho, hp, hnone⟩ := h
  simp only [candidateReasons, append_eq_nil_iff] at hnone
  exact ⟨effective, rule, ho, hp, hnone.1.1⟩

theorem evaluate_of_valid (h : Valid L task policy (some capacity)) (reserved : Option ProfileRef)
    (revalidate : Bool) : ∃ report, evaluate L task policy capacity reserved revalidate = .ok report :=
  ⟨_, evaluate_ok.mpr ⟨h, rfl⟩⟩

theorem evaluateProfileMembership_of_valid (h : Valid L task policy none) (as_of : Rat) :
    ∃ report, evaluateProfileMembership L task policy as_of = .ok report := by
  simp only [evaluateProfileMembership, bind_ok, pure_ok, compileRulebook_ok]
  exact ⟨_, _, ⟨h.compiled, rfl⟩, (), h.validated, rfl⟩

/-- Where a route can be evaluated, the other two entries can be for every profile. A profile
is eligible for the route where its reserved check with the quota selects it; then its check
without the quota selects it too, and it is a member. Where that check selects it, the route
lists it, and what the route gives against it is about the quota. -/
theorem entries_agree (h : evaluateRoute L task policy capacity = .ok report) (p : ProfileRef) :
    ∃ fresh held members, evaluateReservedProfile L task policy capacity p true = .ok fresh ∧
      evaluateReservedProfile L task policy capacity p false = .ok held ∧
      evaluateProfileMembership L task policy capacity.as_of = .ok members ∧
      (report.Eligible p ↔ fresh.selected_profile = some p) ∧
      (report.Eligible p → held.selected_profile = some p ∧ p ∈ members.eligible_profiles) ∧
      (held.selected_profile = some p → (∃ c ∈ report.candidates, c.profile = p) ∧
        ∀ c ∈ report.candidates, c.profile = p → ∀ code ∈ c.reason_codes,
          ∃ reason : Reason, reason.live = true ∧ reason.text = code) := by
  have hvalid := (evaluate_ok.mp h).1
  obtain ⟨fresh, hfresh⟩ := evaluate_of_valid hvalid (some p) true
  obtain ⟨held, hheld⟩ := evaluate_of_valid hvalid (some p) false
  obtain ⟨members, hmembers⟩ := evaluateProfileMembership_of_valid hvalid.uncapped capacity.as_of
  refine ⟨fresh, held, members, hfresh, hheld, hmembers, ?_, ?_, ?_⟩
  · rw [route_eligible h, reserved_selects hfresh]
  · intro he
    have hallowed := (route_eligible h).mp he
    exact ⟨(reserved_selects hheld).mpr hallowed.held, (member_eligible hmembers).mpr hallowed.member⟩
  · intro hs
    obtain ⟨effective, rule, ho, hp, hnone⟩ := (reserved_selects hheld).mp hs
    refine ⟨⟨_, (route_candidate h ho).mpr ⟨p, hp, rfl⟩, by simp⟩, ?_⟩
    rintro c hc rfl code hcode
    obtain ⟨reason, hr, htext⟩ := (route_reasons h ho hc).mp hcode
    rcases candidateReasons_live hr with hlive | hr
    · exact ⟨reason, hlive, htext⟩
    · simp [hnone] at hr

open Sample (library task policy capacity finds)

/-- An eligible profile is selected by both of its checks, and is a member. -/
theorem entries_agree_sample : ∃ fresh held members,
    evaluateReservedProfile library task policy capacity ⟨"p", 1⟩ true = .ok fresh ∧
    evaluateReservedProfile library task policy capacity ⟨"p", 1⟩ false = .ok held ∧
    evaluateProfileMembership library task policy 1 = .ok members ∧
    fresh.selected_profile = some ⟨"p", 1⟩ ∧ held.selected_profile = some ⟨"p", 1⟩ ∧
    ⟨"p", 1⟩ ∈ members.eligible_profiles := by
  obtain ⟨report, hroute, hp⟩ := Sample.finds_eligible
    (show finds task ⟨"p", 1⟩ = true by decide +kernel)
  obtain ⟨fresh, held, members, hfresh, hheld, hmembers, hselects, hkeeps, -⟩ := entries_agree hroute ⟨"p", 1⟩
  exact ⟨fresh, held, members, hfresh, hheld, hmembers, hselects.mp hp, hkeeps hp⟩

end Karajan.Routing
