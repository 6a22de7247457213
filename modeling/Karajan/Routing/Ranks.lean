import Karajan.Routing.Relisting

/-!
# Ranks

The order of the criteria ends with the name of the profile, so that no two
candidates have one sort key: eligible candidates are ranked in one way only,
whatever order the snapshots list things in.
-/

namespace Karajan.Routing

open List Check Listing

variable {capacity capacity' : CapacitySnapshot} {rows : List Candidate}

-- Sort keys

theorem sortKey_profile (ho : .profileId ∈ order) (h : sortKey order a = sortKey order b) :
    a.profile = b.profile := by
  have hpart := map_inj_left.mp h .profileId ho
  simpa [keyPart] using hpart

@[simp] theorem sortKey_withRank : sortKey order (withRank ranked row) = sortKey order row := rfl

theorem mem_rankedBy : row ∈ rankedBy order rows ↔ row ∈ rows ∧ row.reason_codes = [] := by
  simp [rankedBy]

open Candidate (profile)

theorem rankedBy_sorted (ho : .profileId ∈ order) (hn : (rows.map profile).Nodup) :
    (rankedBy order rows).Pairwise fun a b => sortKey order a < sortKey order b := by
  have hle : (rankedBy order rows).Pairwise fun a b => sortKey order a ≤ sortKey order b := by
    have htotal : Std.Total fun a b : Candidate => sortKey order a ≤ sortKey order b :=
      ⟨fun a b => le_total _ _⟩
    exact pairwise_insertionSort _ _
  have hnodup : ((rankedBy order rows).map profile).Nodup := by
    refine ((perm_insertionSort _ _).map profile).nodup_iff.mpr ?_
    exact hn.sublist (filter_sublist.map profile)
  refine (hle.and (pairwise_map.mp hnodup)).imp ?_
  rintro a b ⟨hab, hne⟩
  exact lt_of_le_of_ne hab fun heq => hne (sortKey_profile ho heq)

theorem rank_place (hn : (rows.map profile).Nodup) (hi : i < rows.length)
    (hcodes : rows[i].reason_codes = []) : (withRank rows rows[i]).rank = some (i + 1) := by
  have hfind : rows.findIdx? (·.profile = rows[i].profile) = some i := by
    rw [findIdx?_eq_some_iff_getElem]
    refine ⟨hi, by simp, fun j hj => ?_⟩
    have hne := pairwise_iff_getElem.mp hn j i (by simp; omega) (by simpa using hi) hj
    simpa using hne
  simp [withRank, hcodes, hfind]

-- Reports

/-- The eligible candidates have ranks, and are ranked by their sort keys, of which no two
are the same. -/
structure Report.TotallyRanked (report : Report) : Prop where
  ranked : ∀ c ∈ report.candidates, c.eligible = true → ∃ n, c.rank = some n
  untied : ∀ c ∈ report.candidates, ∀ c' ∈ report.candidates, c ≠ c' →
    sortKey report.cash_sort.effective_candidate_order c ≠
      sortKey report.cash_sort.effective_candidate_order c'
  ordered : ∀ c ∈ report.candidates, ∀ c' ∈ report.candidates, c.eligible = true →
    c'.eligible = true → ∀ n n', c.rank = some n → c'.rank = some n' →
      (n < n' ↔ sortKey report.cash_sort.effective_candidate_order c <
        sortKey report.cash_sort.effective_candidate_order c')

theorem candidateOrder_profile (h : Valid L task policy capacity') :
    .profileId ∈ policy.rulebook.resource_policy.candidate_order := by
  have hc := h.compiled
  simp only [checkRulebook, bind_ok, ensure_ok] at hc
  obtain ⟨_, _, _, _, _, _, _, _, _, _, horder⟩ := hc
  simp only [candidateOrderValid, Bool.and_eq_true, decide_eq_true_eq] at horder
  exact mem_of_getLast? horder.2

theorem checkedCandidates_profiles :
    (checkedCandidates L task policy capacity rule effective none false).map profile =
      consideredRefs task policy rule none := by
  simp [checkedCandidates, Function.comp_def]

theorem ranked_totally (ho : .profileId ∈ order) (hn : (rows.map profile).Nodup)
    (he : ∀ r ∈ rows, r.eligible = true → r.reason_codes = []) {report : Report}
    (horder : report.cash_sort.effective_candidate_order = order)
    (hcandidates : report.candidates = rows.map (withRank (rankedBy order rows))) : report.TotallyRanked := by
  have hranked : ((rankedBy order rows).map profile).Nodup := by
    refine ((perm_insertionSort _ _).map profile).nodup_iff.mpr ?_
    exact hn.sublist (filter_sublist.map profile)
  have hplace : ∀ r ∈ rows, r.eligible = true → ∃ i, ∃ hi : i < (rankedBy order rows).length,
      (rankedBy order rows)[i] = r ∧ (withRank (rankedBy order rows) r).rank = some (i + 1) := by
    intro r hr her
    have hcodes := he r hr her
    obtain ⟨i, hi, hget⟩ := getElem_of_mem (mem_rankedBy.mpr ⟨hr, hcodes⟩)
    exact ⟨i, hi, hget, hget ▸ rank_place hranked hi (hget ▸ hcodes)⟩
  have hsorted := pairwise_iff_getElem.mp (rankedBy_sorted ho hn)
  subst horder
  constructor
  · intro c hc hec
    rw [hcandidates] at hc
    obtain ⟨r, hr, rfl⟩ := mem_map.mp hc
    obtain ⟨i, hi, -, hrank⟩ := hplace r hr hec
    exact ⟨i + 1, hrank⟩
  · intro c hc c' hc' hne heq
    rw [hcandidates] at hc hc'
    obtain ⟨r, hr, rfl⟩ := mem_map.mp hc
    obtain ⟨r', hr', rfl⟩ := mem_map.mp hc'
    have hprofile : r.profile = r'.profile := sortKey_profile ho heq
    exact hne (congrArg _ (inj_on_of_nodup_map hn hr hr' hprofile))
  · intro c hc c' hc' hec hec' n n' hrank hrank'
    rw [hcandidates] at hc hc'
    obtain ⟨r, hr, rfl⟩ := mem_map.mp hc
    obtain ⟨r', hr', rfl⟩ := mem_map.mp hc'
    obtain ⟨i, hi, rfl, hi'⟩ := hplace r hr hec
    obtain ⟨j, hj, rfl, hj'⟩ := hplace r' hr' hec'
    rw [hi'] at hrank
    rw [hj'] at hrank'
    cases hrank
    cases hrank'
    simp only [sortKey_withRank, Nat.add_lt_add_iff_right]
    constructor
    · exact hsorted i j hi hj
    · intro hlt
      rcases lt_trichotomy i j with h | h | h
      · exact h
      · subst h
        exact absurd hlt (lt_irrefl _)
      · exact absurd hlt (hsorted j i hj hi h).asymm

theorem checkedCandidates_relisted (hv : Valid L task policy (some capacity))
    (ht : task.Relisted task') (hp : policy.Relisted policy') (hc : capacity.Relisted capacity') :
    checkedCandidates L task policy capacity rule effective none false =
      checkedCandidates L task' policy' capacity' rule effective none false := by
  simp only [checkedCandidates, consideredRefs_relisted ht hp,
    checkedCandidate_relisted hv.policy_distinct hv.capacity_distinct ht hp hc]

theorem rank_relisted (hp : policy.Relisted policy') (hc : capacity.Relisted capacity')
    (rows : List Candidate) : rank rows rule policy capacity = rank rows rule policy' capacity' := by
  have hsort : cashSort rows policy capacity = cashSort rows policy' capacity' := by
    simp only [cashSort, hp.rulebook.resource_policy, hc.fx, hc.as_of]
  have hinputs : ∀ mode, withSortInputs rule capacity mode = withSortInputs rule capacity' mode := by
    intro mode
    funext row
    simp only [withSortInputs, hc.fx]
  simp only [rank, hsort, hinputs]

theorem membership_selected (as_of : Rat) (reserved : Option ProfileRef) :
    (membership L task policy policy.rulebook as_of reserved).1.effective_class =
        (selectCompiledRule L task.toTaskClassification policy.rulebook policy.risk_policy).effective_class ∧
      (membership L task policy policy.rulebook as_of reserved).1.rule_id =
        (selectCompiledRule L task.toTaskClassification policy.rulebook policy.risk_policy).rule_id := by
  unfold membership
  grind [Members.of]

section
variable (h : evaluateRoute L task policy capacity = .ok report)
include h

theorem route_totally_ranked : report.TotallyRanked := by
  by_cases hex : ∃ effective rule, Opens L task policy effective rule
  · obtain ⟨effective, rule, ho⟩ := hex
    obtain ⟨hcandidates, -, hsort⟩ := route_open h ho
    have horder := candidateOrder_profile (evaluate_ok.mp h).1
    refine ranked_totally ?_ ?_ ?_ (congrArg CashSort.effective_candidate_order hsort) hcandidates
    · simp [rank, cashSort, horder]
    · rw [map_map]
      show (map profile _).Nodup
      rw [checkedCandidates_profiles]
      exact nodup_sortedSet
    · intro r hr her
      obtain ⟨row, hrow, rfl⟩ := mem_map.mp hr
      obtain ⟨key, -, rfl⟩ := mem_map.mp hrow
      exact checkedCandidate_no_codes.mpr (checkedCandidate_eligible.mp her)
  · have hempty := (route_closed h (no_stage hex)).1
    constructor <;> simp [hempty]

-- Order

theorem route_selected : report.effective_class = (selectCompiledRule L task.toTaskClassification policy.rulebook
        policy.risk_policy).effective_class ∧
      report.rule_id = (selectCompiledRule L task.toTaskClassification policy.rulebook
        policy.risk_policy).rule_id := by
  obtain ⟨-, rfl⟩ := evaluate_ok.mp h
  rw [← (membership_selected capacity.as_of none).1, ← (membership_selected capacity.as_of none).2]
  unfold reportOf
  split <;> exact ⟨rfl, rfl⟩

theorem route_selects (hp : report.selected_profile = some p) : Allowed L task policy capacity true p := by
  by_cases hex : ∃ effective rule, Opens L task policy effective rule
  · obtain ⟨effective, rule, ho⟩ := hex
    rw [(route_open h ho).2.1] at hp
    obtain ⟨row, hrow, rfl⟩ := mem_map.mp (mem_of_head? hp)
    obtain ⟨hrow, hnone⟩ := mem_rankedBy.mp hrow
    obtain ⟨checked, hchecked, rfl⟩ := mem_map.mp hrow
    have hcodes : checked.reason_codes = [] := hnone
    change Allowed L task policy capacity true checked.profile
    obtain ⟨key, hkey, rfl⟩ := mem_map.mp hchecked
    rw [checkedCandidate_profile]
    exact ⟨effective, rule, ho, mem_sortedSet.mp hkey, checkedCandidate_no_codes.mp hcodes⟩
  · rw [(route_closed h (no_stage hex)).2] at hp
    cases hp

end

/-- A route does not depend on the order in which its snapshots list things, and ranks its
eligible candidates totally. -/
theorem listing_irrelevant (ht : task.Relisted task') (hp : policy.Relisted policy')
    (hc : capacity.Relisted capacity') (h : evaluateRoute L task policy capacity = .ok report) :
    (∃ report', evaluateRoute L task' policy' capacity' = .ok report' ∧
      report'.effective_class = report.effective_class ∧ report'.rule_id = report.rule_id ∧
      report'.selected_profile = report.selected_profile ∧
      report'.candidates = report.candidates) ∧ report.TotallyRanked := by
  have hv := (evaluate_ok.mp h).1
  have hroute : evaluateRoute L task' policy' capacity' = .ok _ := evaluate_ok.mpr ⟨hv.relisted ht hp hc, rfl⟩
  refine ⟨⟨_, hroute, ?_⟩, route_totally_ranked h⟩
  have hselect := selectCompiledRule_relisted (L := L) ht.classification hp.rulebook hp.risk_policy
  rw [(route_selected hroute).1, (route_selected hroute).2, (route_selected h).1, (route_selected h).2]
  refine ⟨hselect.effective_class.symm, hselect.rule_id.symm, ?_⟩
  by_cases hex : ∃ effective rule, Opens L task policy effective rule
  · obtain ⟨effective, rule, ho⟩ := hex
    obtain ⟨hcandidates, hselected, -⟩ := route_open h ho
    obtain ⟨hcandidates', hselected', -⟩ := route_open hroute ((opens_relisted ht hp).mp ho)
    rw [← checkedCandidates_relisted hv ht hp hc, ← rank_relisted hp hc] at hcandidates' hselected'
    exact ⟨hselected'.trans hselected.symm, hcandidates'.trans hcandidates.symm⟩
  · have hclosed := no_stage hex
    have hclosed' : ∀ effective rule, ¬ Opens L task' policy' effective rule :=
      fun effective rule ho => hclosed effective rule ((opens_relisted ht hp).mpr ho)
    rw [(route_closed h hclosed).1, (route_closed h hclosed).2, (route_closed hroute hclosed').1,
      (route_closed hroute hclosed').2]
    exact ⟨rfl, rfl⟩

theorem HardConstraints.Relisted.refl (c : HardConstraints) : c.Relisted c :=
  ⟨.refl _, .refl _, .refl _, .refl _, .refl _⟩

theorem GroupsRelisted.refl (groups : Dict String (List ProfileRef)) : GroupsRelisted groups groups := by
  intro name
  cases groups.get? name <;> simp

theorem PolicySnapshot.Relisted.refl (p : PolicySnapshot) : p.Relisted p where
  rulebook := ⟨rfl, .refl _, rfl, .refl _⟩
  resources := ⟨.refl _, .refl _, .refl _, .refl _, .refl _⟩
  approved_profile_refs := .refl _
  profile_facts := .refl _
  risk_policy := ⟨rfl, .refl _⟩
  constraints := .refl _

theorem CapacitySnapshot.Relisted.refl (c : CapacitySnapshot) : c.Relisted c where
  as_of := rfl
  accounts := .refl _
  pools := .refl _
  estimates := (Relisted.of_perm (.refl _)).imp fun _ _ h => h ▸ ⟨rfl, .refl _, rfl, rfl, rfl⟩
  budget_remaining := rfl
  fx := rfl

def Sample.reversed : TaskSnapshot := { Sample.task with paths := ["y", "x"] }

theorem Sample.task_reversed : Sample.task.Relisted Sample.reversed :=
  ⟨⟨⟨rfl, rfl, .swap _ _ _⟩, rfl, rfl, rfl, .refl _, ⟨[], .refl _, .nil⟩⟩, .refl _, .refl _, rfl, rfl, rfl, rfl,
    rfl, rfl, rfl, rfl, rfl, rfl, .refl _, .refl _, .refl _, .refl _, .refl _, rfl, rfl, rfl, rfl⟩

/-- The route of a task, and that of the task with its paths the other way round. -/
theorem listing_irrelevant_sample : ∃ report report',
    evaluateRoute Sample.library Sample.task Sample.policy Sample.capacity = .ok report ∧
    evaluateRoute Sample.library Sample.reversed Sample.policy Sample.capacity = .ok report' ∧
    report.Eligible ⟨"p", 1⟩ ∧ report.Eligible ⟨"q", 1⟩ ∧ report.TotallyRanked ∧
    report'.candidates = report.candidates := by
  obtain ⟨report, hroute, hp⟩ := Sample.finds_eligible
    (show Sample.finds Sample.task ⟨"p", 1⟩ = true by decide +kernel)
  obtain ⟨report₂, hroute₂, hq⟩ := Sample.finds_eligible
    (show Sample.finds Sample.task ⟨"q", 1⟩ = true by decide +kernel)
  rw [hroute] at hroute₂
  cases hroute₂
  obtain ⟨⟨report', hroute', -, -, -, hcandidates⟩, hranked⟩ :=
    listing_irrelevant Sample.task_reversed (.refl Sample.policy) (.refl Sample.capacity) hroute
  exact ⟨report, report', hroute, hroute', hp, hq, hranked, hcandidates⟩

end Karajan.Routing
