import Karajan.Routing.Reports

/-!
# Ambiguous rules

The compiler reports two rules of one priority exactly where some task meets
both and no rule of their role above them. What is compared are finitely many
combinations: a risk that no rule names stands for all that are not named, and
the domains that both rules ask for are the fewest a task of both can have.
-/

namespace Karajan.Routing

open List
open Capacity (Purpose)
open Check
variable {left right row : When} {purpose : Option Purpose} {readiness : Readiness}

-- Risks that are not named

theorem unlistedRisk_fresh (h : (named.filter (sentinel.length ≤ ·.length)).length ≤ rounds) :
    unlistedRisk named rounds sentinel ∉ named := by
  induction rounds generalizing sentinel with
  | zero =>
    intro hm
    rw [unlistedRisk] at hm
    have hin : sentinel ∈ named.filter (sentinel.length ≤ ·.length) := by simpa using hm
    exact absurd (length_pos_of_mem hin) (Nat.not_lt.mpr h)
  | succ rounds ih =>
    rw [unlistedRisk]
    split
    case isFalse hm => exact hm
    case isTrue hm =>
      -- the names that are long enough are fewer for the longer text
      refine ih (Nat.le_of_lt_succ (Nat.lt_of_lt_of_le ?_ h))
      have hin : sentinel ∈ named.filter (sentinel.length ≤ ·.length) := by simpa using hm
      have hlonger : named.filter ((sentinel ++ "_").length ≤ ·.length) =
          (named.filter (sentinel.length ≤ ·.length)).filter ((sentinel ++ "_").length ≤ ·.length) := by
        rw [filter_filter]
        refine filter_congr fun name _ => ?_
        simp only [String.length_append, ← Bool.decide_and, decide_eq_decide]
        omega
      rw [hlonger]
      exact List.length_filter_lt_length_iff_exists.mpr ⟨sentinel, hin, by simp⟩

-- Conditions

structure When.Proper (row : When) : Prop where
  classes : row.effective_class.isSome = true → row.effective_class_in = none
  listed : row.effective_class_in ≠ some []
  purpose : row.role ≠ .commander → row.purpose = none

theorem checkRulebook_proper (h : checkRulebook doc = .ok ()) : ∀ rule ∈ doc.rules, rule.when.Proper := by
  intro rule hrule
  simp only [checkRulebook, bind_ok, ensure_ok] at h
  obtain ⟨-, -, -, -, -, -, _, hrules, -⟩ := h
  obtain ⟨_, hchecked, -⟩ := each_ok hrules rule hrule
  simp only [checkRule, bind_ok, ensure_ok] at hchecked
  obtain ⟨-, hclasses, -, hpurpose, -⟩ := hchecked
  simp only [Bool.not_eq_true', Bool.or_eq_false_iff, Bool.and_eq_false_iff, decide_eq_false_iff_not] at hclasses
  refine ⟨fun hsome => ?_, hclasses.2, fun hrole => by simpa [hrole] using hpurpose⟩
  simpa [hsome] using hclasses.1

theorem mem_classes (h : row.Proper) : kind ∈ row.classes ↔
    (row.effective_class.isNone || row.effective_class = some kind) = true ∧
      row.effective_class_in.all (kind ∈ ·) = true := by
  unfold When.classes
  split
  case h_1 c hc =>
    simp [hc, h.classes (by simp [hc]), eq_comm]
  case h_2 c rest hnone hsome => simp [hnone, hsome]
  case h_3 hnone hsome =>
    cases hin : row.effective_class_in with
    | none => cases kind <;> simp [hnone]
    | some classes =>
      cases classes with
      | nil => exact absurd hin h.listed
      | cons c rest => exact absurd hin (hsome c rest)

theorem matchesTask_iff (h : rule.when.Proper) : matchesTask rule task kind = true ↔ rule.when.role = task.role ∧
      rule.when.covers kind task.risk task.purpose task.readiness task.domains = true := by
  simp only [matchesTask, When.covers, Bool.and_eq_true, decide_eq_true_eq, mem_classes h]
  tauto

-- Overlapping conditions

theorem shared_purpose (h : disagree left.purpose right.purpose = false) (hp : purpose ∈ sharedPurposes left right) :
    (left.purpose.isNone || left.purpose = purpose) = true ∧ (right.purpose.isNone || right.purpose = purpose) = true := by
  unfold sharedPurposes at hp
  cases hleft : left.purpose <;> cases hright : right.purpose <;>
    simp_all [disagree]

theorem shared_readiness (h : disagree left.readiness right.readiness = false)
    (hr : readiness ∈ sharedReadiness left right) :
    (left.readiness.isNone || left.readiness = some readiness) = true ∧
      (right.readiness.isNone || right.readiness = some readiness) = true := by
  unfold sharedReadiness at hr
  cases hleft : left.readiness <;> cases hright : right.readiness <;>
    simp_all [disagree]

theorem shared_risk (h : ¬(left.risks_in ≠ [] ∧ right.risks_in ≠ [] ∧ sharedRisks left right = []))
    (hr : sharedRisks left right ≠ [] → risk ∈ sharedRisks left right) :
    (left.risks_in = [] ∨ risk ∈ left.risks_in) ∧ (right.risks_in = [] ∨ risk ∈ right.risks_in) := by
  unfold sharedRisks at h hr
  by_cases hleft : left.risks_in = [] <;> by_cases hright : right.risks_in = [] <;> simp_all

theorem When.covers_iff : row.covers kind risk purpose readiness domains = true ↔
    (row.purpose.isNone || row.purpose = purpose) = true ∧
      (row.readiness.isNone || row.readiness = some readiness) = true ∧ kind ∈ row.classes ∧
      (row.risks_in = [] ∨ risk ∈ row.risks_in) ∧ ∀ name ∈ row.domains_all, name ∈ domains := by
  simp [When.covers, and_assoc]

theorem covers_both (hpurposes : disagree left.purpose right.purpose = false)
    (hreadiness : disagree left.readiness right.readiness = false)
    (hrisks : ¬(left.risks_in ≠ [] ∧ right.risks_in ≠ [] ∧ sharedRisks left right = []))
    (hkind : kind ∈ left.classes.filter (· ∈ right.classes))
    (hrisk : sharedRisks left right ≠ [] → risk ∈ sharedRisks left right)
    (hpurpose : purpose ∈ sharedPurposes left right) (hready : readiness ∈ sharedReadiness left right) :
    left.covers kind risk purpose readiness (left.domains_all ++ right.domains_all) = true ∧
      right.covers kind risk purpose readiness (left.domains_all ++ right.domains_all) = true := by
  obtain ⟨hp, hp'⟩ := shared_purpose hpurposes hpurpose
  obtain ⟨hr, hr'⟩ := shared_readiness hreadiness hready
  obtain ⟨hk, hk'⟩ := shared_risk hrisks hrisk
  simp only [mem_filter, decide_eq_true_eq] at hkind
  exact ⟨When.covers_iff.mpr ⟨hp, hr, hkind.1, hk, fun _ hm => mem_append_left _ hm⟩,
    When.covers_iff.mpr ⟨hp', hr', hkind.2, hk', fun _ hm => mem_append_right _ hm⟩⟩

theorem overlap_met (h : overlap left right higher = true) : left.role = right.role ∧
    ∃ kind risk purpose readiness domains, left.covers kind risk purpose readiness domains = true ∧
      right.covers kind risk purpose readiness domains = true ∧
      ∀ row ∈ higher, row.covers kind risk purpose readiness domains = false := by
  simp only [overlap] at h
  split at h
  · cases h
  case isFalse hagree =>
  simp only [Bool.or_eq_true, decide_eq_true_eq, not_or, Decidable.not_not, Bool.not_eq_true] at hagree
  obtain ⟨⟨hrole, hpurposes⟩, hreadiness⟩ := hagree
  split at h
  · cases h
  case isFalse hshared =>
  split at h
  · cases h
  case isFalse hrisks =>
  replace hrisks : ¬(left.risks_in ≠ [] ∧ right.risks_in ≠ [] ∧ sharedRisks left right = []) := by
    simpa [and_assoc] using hrisks
  have hboth := @covers_both left right
  refine ⟨hrole, ?_⟩
  split at h
  case isTrue hnone =>
    obtain ⟨kind, hkind⟩ := exists_mem_of_ne_nil _ hshared
    obtain ⟨purpose, hpurpose⟩ : ∃ purpose, purpose ∈ sharedPurposes left right := by
      unfold sharedPurposes
      split
      · exact ⟨_, mem_cons_self⟩
      · split <;> exact ⟨_, mem_cons_self⟩
    obtain ⟨readiness, hready⟩ : ∃ readiness, readiness ∈ sharedReadiness left right := by
      unfold sharedReadiness
      split <;> exact ⟨_, mem_cons_self⟩
    have hrisk : sharedRisks left right ≠ [] → (sharedRisks left right).headD "" ∈ sharedRisks left right := by
      cases sharedRisks left right <;> simp
    obtain ⟨hleft, hright⟩ := hboth hpurposes hreadiness hrisks hkind hrisk hpurpose hready
    refine ⟨_, _, _, _, _, hleft, hright, ?_⟩
    simp [List.isEmpty_iff.mp hnone]
  · simp only [any_eq_true, Bool.not_eq_true', any_eq_false, Bool.not_eq_true] at h
    obtain ⟨kind, hkind, risk, hrisk, purpose, hpurpose, readiness, hready, hclear⟩ := h
    have hrisk' : sharedRisks left right ≠ [] → risk ∈ sharedRisks left right := by
      intro hne
      rwa [if_neg hne] at hrisk
    obtain ⟨hleft, hright⟩ := hboth hpurposes hreadiness hrisks hkind hrisk' hpurpose hready
    exact ⟨_, _, _, _, _, hleft, hright, hclear⟩

theorem agree_of_met [DecidableEq α] {a : α} (hx : (x.isNone || x = some a) = true)
    (hy : (y.isNone || y = some a) = true) : disagree x y = false := by
  cases x <;> cases y <;> simp_all [disagree]

theorem overlap_of_met (hrole : left.role = right.role) (hpurpose : (left.role = .commander) = purpose.isSome)
    (hleft : left.covers kind risk purpose readiness domains = true)
    (hright : right.covers kind risk purpose readiness domains = true)
    (hclear : ∀ row ∈ higher, row.covers kind risk purpose readiness domains = false) :
    overlap left right higher = true := by
  obtain ⟨hp, hr, hk, hrisk, hd⟩ := When.covers_iff.mp hleft
  obtain ⟨hp', hr', hk', hrisk', hd'⟩ := When.covers_iff.mp hright
  have hkind : kind ∈ left.classes.filter (· ∈ right.classes) := by simp [hk, hk']
  have hshared : sharedRisks left right ≠ [] → risk ∈ sharedRisks left right := by
    unfold sharedRisks
    rcases hrisk with hrisk | hrisk <;> rcases hrisk' with hrisk' | hrisk' <;>
      split <;> simp_all
  have hpurposes : purpose ∈ sharedPurposes left right := by
    unfold sharedPurposes
    cases purpose with
    | none =>
      have hnone : left.purpose = none := by
        simpa using hp
      have hnone' : right.purpose = none := by simpa using hp'
      have hrole : left.role ≠ .commander := by simpa using hpurpose
      simp [hnone, hnone', hrole]
    | some p =>
      cases hleft : left.purpose <;> cases hright : right.purpose <;> cases p <;> simp_all
  have hready : readiness ∈ sharedReadiness left right := by
    unfold sharedReadiness
    cases hleft : left.readiness <;> cases hright : right.readiness <;> cases readiness <;> simp_all
  have hagree : disagree left.purpose right.purpose = false := by
    cases hleft : left.purpose <;> cases hright : right.purpose <;> simp_all [disagree]
  unfold overlap
  rw [if_neg (by simp [hrole, hagree, agree_of_met hr hr']), if_neg (ne_nil_of_mem hkind), if_neg]
  rotate_left
  · simp only [Bool.and_eq_true, decide_eq_true_eq, and_assoc]
    rintro ⟨hne, hne', hnil⟩
    have hin : risk ∈ sharedRisks left right := by
      simpa [sharedRisks, hne, hne'] using ⟨hrisk.resolve_left hne, hrisk'.resolve_left hne'⟩
    exact absurd hnil (ne_nil_of_mem hin)
  split
  · rfl
  case isFalse =>
  simp only [any_eq_true, Bool.not_eq_true', any_eq_false, Bool.not_eq_true]
  -- what covers the fewest domains and the chosen risk would cover the task
  have hfewest : ∀ row ∈ higher, ∀ chosen, (chosen ∈ row.risks_in → chosen = risk) →
      row.covers kind chosen purpose readiness (left.domains_all ++ right.domains_all) = false := by
    intro row hrow chosen hchosen
    rw [Bool.eq_false_iff]
    intro hcovers
    obtain ⟨hp, hr, hk, hrisk, hdomains⟩ := When.covers_iff.mp hcovers
    refine Bool.eq_false_iff.mp (hclear row hrow) (When.covers_iff.mpr ⟨hp, hr, hk, ?_, fun name hname => ?_⟩)
    · rcases hrisk with hnil | hm
      · exact .inl hnil
      · exact .inr (hchosen hm ▸ hm)
    · rcases List.mem_append.mp (hdomains name hname) with hm | hm
      · exact hd name hm
      · exact hd' name hm
  by_cases hnone : sharedRisks left right = []
  · refine ⟨kind, hkind, _, by rw [if_pos hnone]; exact mem_singleton_self _, purpose, hpurposes, readiness,
      hready, fun row hrow => hfewest row hrow _ fun hm => ?_⟩
    exact absurd (List.mem_flatMap.mpr ⟨row, hrow, hm⟩) (unlistedRisk_fresh (length_filter_le ..))
  · exact ⟨kind, hkind, risk, by rw [if_neg hnone]; exact hshared hnone, purpose, hpurposes, readiness, hready,
      fun row hrow => hfewest row hrow _ fun _ => rfl⟩

-- The diagnosis

/-- Some task of some class meets both rules, and no rule of their role above them. -/
def Confusable (rules : List Rule) (rule other : Rule) : Prop :=
  ∃ task effective, matchesTask rule task effective = true ∧ matchesTask other task effective = true ∧
    ∀ row ∈ rules, rule.priority < row.priority → row.when.role = rule.when.role →
      matchesTask row task effective = false

theorem ambiguityIssue_some : ambiguityIssue rules index rule = some issue → ∃ other ∈ rules.take index,
      rule.priority = other.priority ∧ issue = ⟨s!"rules.{index}", .ruleAmbiguous other.id⟩ ∧
      overlap rule.when other.when ((rules.filter fun row =>
        row.priority > rule.priority && row.when.role = rule.when.role).map Rule.when) = true := by
  intro h
  obtain ⟨other, hfound, rfl⟩ := Option.map_eq_some_iff.mp h
  have hoverlap := find?_some hfound
  simp only [Bool.and_eq_true, decide_eq_true_eq] at hoverlap
  exact ⟨other, mem_of_find?_eq_some hfound, hoverlap.1, rfl, hoverlap.2⟩

theorem confusable_of_overlap (hproper : ∀ rule ∈ rules, rule.when.Proper) (hrule : rule ∈ rules)
    (hother : other ∈ rules) (h : overlap rule.when other.when ((rules.filter fun row =>
      row.priority > rule.priority && row.when.role = rule.when.role).map Rule.when) = true) :
    Confusable rules rule other := by
  obtain ⟨hrole, kind, risk, purpose, readiness, domains, hmet, hmet', hclear⟩ := overlap_met h
  let task : TaskClassification :=
    { complexity := .T1, risk, paths := [], role := rule.when.role, purpose, readiness, domains, authors := [] }
  refine ⟨task, kind, (matchesTask_iff (hproper rule hrule)).mpr ⟨rfl, hmet⟩,
    (matchesTask_iff (hproper other hother)).mpr ⟨hrole.symm, hmet'⟩, fun row hrow habove hsame => ?_⟩
  have hin : row.when ∈ (rules.filter fun row =>
      row.priority > rule.priority && row.when.role = rule.when.role).map Rule.when :=
    mem_map_of_mem (List.mem_filter.mpr ⟨hrow, by simp [habove, hsame]⟩)
  rw [Bool.eq_false_iff, Ne, matchesTask_iff (hproper row hrow)]
  exact fun hm => Bool.eq_false_iff.mp (hclear _ hin) hm.2

theorem selects_two (h : .ruleAmbiguous ∈ (selectCompiledRule L task doc risks).reason_codes) :
    ∃ effective other rule before after, doc.rules = before ++ rule :: after ∧ other ∈ before ∧
      matchesTask rule task effective = true ∧ matchesTask other task effective = true ∧
      rule.priority = other.priority ∧
      ∀ row ∈ doc.rules, rule.priority < row.priority → matchesTask row task effective = false := by
  unfold selectCompiledRule at h
  split at h
  · simp at h
  case isFalse =>
  split at h
  · simp at h
  case h_2 effective _ =>
  simp only at h
  split at h
  · simp at h
  · split at h <;> simp at h
  case h_3 other rule rest hhighest =>
    have hsub : [other, rule].Sublist doc.rules := by
      have hfront : [other, rule].Sublist (highestRules (doc.rules.filter (matchesTask · task effective))) := by
        rw [hhighest]
        exact (nil_sublist rest).cons_cons rule |>.cons_cons other
      exact hfront.trans (List.filter_sublist.trans filter_sublist)
    obtain ⟨before, rest', hsplit, hother, hrule⟩ := List.cons_sublist_iff.mp hsub
    obtain ⟨between, after, rfl⟩ := append_of_mem (List.singleton_sublist.mp hrule)
    have hof : ∀ r ∈ [other, rule], some r.priority =
        ((doc.rules.filter (matchesTask · task effective)).map Rule.priority).max? ∧
          matchesTask r task effective = true := by
      intro r hr
      have hr' : r ∈ highestRules (doc.rules.filter (matchesTask · task effective)) := by
        rw [hhighest]
        exact mem_append_left rest hr
      simp only [highestRules, mem_filter, decide_eq_true_eq] at hr'
      exact ⟨hr'.2, hr'.1.2⟩
    obtain ⟨hmax, hmatch⟩ := hof rule (by simp)
    obtain ⟨hmax', hmatch'⟩ := hof other (by simp)
    refine ⟨effective, other, rule, before ++ between, after, by simp [hsplit], mem_append_left _ hother, hmatch,
      hmatch', Option.some.inj (hmax.trans hmax'.symm), fun row hrow habove => ?_⟩
    rw [Bool.eq_false_iff]
    intro hm
    have hle := (max?_eq_some_iff.mp hmax.symm).2 row.priority
      (mem_map_of_mem (List.mem_filter.mpr ⟨hrow, hm⟩))
    omega

/-- A rulebook that is compiled without an ambiguity selects none, and every ambiguity it is
compiled with is one of two rules that some task meets, with none above them. -/
theorem ambiguity_exact (h : compileRulebook doc = .ok compiled) :
    ((∀ issue ∈ compiled.issues, ∀ id, issue.code ≠ .ruleAmbiguous id) →
      ∀ L task risks, validateClassification L task risks = .ok () →
        .ruleAmbiguous ∉ (selectCompiledRule L task compiled.document risks).reason_codes) ∧
    ∀ issue ∈ compiled.issues, ∀ id, issue.code = .ruleAmbiguous id →
      ∃ index rule other, compiled.document.rules[index]? = some rule ∧ other ∈ compiled.document.rules.take index ∧
        issue.path = s!"rules.{index}" ∧ other.id = id ∧ rule.priority = other.priority ∧
        Confusable compiled.document.rules rule other := by
  obtain ⟨hchecked, rfl⟩ := compileRulebook_ok.mp h
  have hproper := checkRulebook_proper hchecked
  constructor
  case left =>
    intro hclear L task risks hvalid (hambiguous : _ ∈ (selectCompiledRule L task doc risks).reason_codes)
    obtain ⟨effective, other, rule, before, after, hsplit, hother, hmatch, hmatch', hpriority, hhighest⟩ :=
      selects_two hambiguous
    have hrule : rule ∈ doc.rules := by simp [hsplit]
    have hin : other ∈ doc.rules := by simp [hsplit, hother]
    obtain ⟨hrole, hmet⟩ := (matchesTask_iff (hproper rule hrule)).mp hmatch
    obtain ⟨hrole', hmet'⟩ := (matchesTask_iff (hproper other hin)).mp hmatch'
    have hpurpose : (rule.when.role = .commander) = task.purpose.isSome := by
      simp only [validateClassification, bind_ok, ensure_ok, decide_eq_true_eq] at hvalid
      obtain ⟨-, -, -, -, -, -, hpurpose⟩ := hvalid
      rw [hrole]
      exact hpurpose
    have hoverlap : overlap rule.when other.when ((doc.rules.filter fun row =>
        row.priority > rule.priority && row.when.role = rule.when.role).map Rule.when) = true := by
      refine overlap_of_met (hrole.trans hrole'.symm) hpurpose hmet hmet' ?_
      intro row hrow
      obtain ⟨above, habove, rfl⟩ := List.mem_map.mp hrow
      simp only [mem_filter, Bool.and_eq_true, decide_eq_true_eq] at habove
      rw [Bool.eq_false_iff]
      intro hcovers
      exact Bool.eq_false_iff.mp (hhighest above habove.1 habove.2.1)
        ((matchesTask_iff (hproper above habove.1)).mpr ⟨habove.2.2.trans hrole, hcovers⟩)
    cases hissue : ambiguityIssue doc.rules before.length rule with
    | none =>
      have hnone := find?_eq_none.mp (Option.map_eq_none_iff.mp hissue) other (by simp [hsplit, hother])
      exact absurd (by simp [← hpriority, hoverlap]) hnone
    | some issue =>
      obtain ⟨found, -, -, rfl, -⟩ := ambiguityIssue_some hissue
      have hreported : ⟨s!"rules.{before.length}", .ruleAmbiguous found.id⟩ ∈ compileIssues doc.rules :=
        List.mem_flatMap.mpr
          ⟨(rule, before.length), mem_zipIdx_iff_getElem?.mpr (by simp [hsplit]), by simp [hissue]⟩
      exact hclear _ hreported found.id rfl
  case right =>
    intro issue hissue id hcode
    obtain ⟨⟨rule, index⟩, hat, hissue⟩ := List.mem_flatMap.mp hissue
    have hat := mem_zipIdx_iff_getElem?.mp hat
    rcases List.mem_append.mp hissue with hrequired | hambiguous
    · simp only [requirementIssues, mem_filterMap] at hrequired
      obtain ⟨_, -, hrequired⟩ := hrequired
      split at hrequired <;> cases hrequired
      cases hcode
    · obtain ⟨other, hother, hpriority, rfl, hoverlap⟩ := ambiguityIssue_some (Option.mem_toList.mp hambiguous)
      cases hcode
      exact ⟨index, rule, other, hat, hother, rfl, rfl, hpriority, confusable_of_overlap hproper
        (mem_of_getElem? hat) (mem_of_mem_take hother) hoverlap⟩

open Sample (task rulebook rule)

theorem ambiguity_exact_sample :
    .ruleAmbiguous ∉ (selectCompiledRule Sample.library task.toTaskClassification rulebook
      Sample.policy.risk_policy).reason_codes ∧
    Confusable [rule, { rule with id := "s" }] { rule with id := "s" } rule := by
  have hsample : compileRulebook rulebook = .ok _ := compileRulebook_ok.mpr ⟨by decide +kernel, rfl⟩
  have htwin : compileRulebook { rulebook with rules := [rule, { rule with id := "s" }] } =
    .ok _ := compileRulebook_ok.mpr ⟨by decide +kernel, rfl⟩
  have hunique := ambiguity_exact hsample
  have hdouble := ambiguity_exact htwin
  have hnone : compileIssues rulebook.rules = [] := by decide +kernel
  refine ⟨hunique.1 (by simp [hnone]) _ _ _ (by decide +kernel), ?_⟩
  obtain ⟨index, rule, other, hat, hother, hpath, hid, -, hconfusable⟩ :=
    hdouble.2 ⟨"rules.1", .ruleAmbiguous "r"⟩ (by decide +kernel) "r" rfl
  match index with
  | 0 => simp at hother
  | 1 =>
    cases hat
    obtain rfl : other = rule := by simpa using hother
    exact hconfusable
  | index + 2 => simp at hat

end Karajan.Routing
