import Karajan.Planner.RoutingAuthorization

/-!
# What a ceiling confines

Authorizations are ordered dimension by dimension: an authorization is narrower
than another if it names fewer things, asks for less and requires more. The
checks of the code accept what conforms to the policy and the configuration and
is narrower than the ceiling, so that what holds of the order holds of them.
-/

namespace Karajan.Planner

open Routing (Rule Rulebook ProfileRef compileRulebook)
open Check

-- Paths

/-- Both are accepted paths, and the parts of the one continue those of the other. -/
def Below (L : Library) (root path : String) : Prop :=
  ∃ stem parts, pathParts L root = .ok stem ∧ pathParts L path = .ok parts ∧ stem <+: parts

/-- Every accepted root among the former is below one of the latter. -/
def RootsWithin (L : Library) (narrow wide : List String) : Prop :=
  ∀ root ∈ narrow, ∀ stem, pathParts L root = .ok stem → ∃ above ∈ wide, Below L above root

theorem Below.trans (h : Below L a b) (h' : Below L b c) : Below L a c := by
  obtain ⟨sa, sb, ha, hb, hab⟩ := h
  obtain ⟨sb', sc, hb', hc, hbc⟩ := h'
  cases hb.symm.trans hb'
  exact ⟨sa, sc, ha, hc, hab.trans hbc⟩

theorem below_refl (h : pathParts L path = .ok parts) : Below L path path :=
  ⟨parts, parts, h, h, List.prefix_refl parts⟩

theorem rootsWithin_of_subset (h : narrow ⊆ wide) : RootsWithin L narrow wide :=
  fun root hr _ hs => ⟨root, h hr, below_refl hs⟩

theorem root_covers (hp : pathParts L path = .ok parts) :
    (do let stem ← pathParts L root
        return decide (parts.take stem.length = stem) : Except PlanError Bool) = .ok true ↔
      Below L root path := by
  simp only [bind_ok, pure_ok, decide_eq_true_eq, Below, hp]
  constructor
  · rintro ⟨stem, hs, htake⟩
    exact ⟨stem, parts, hs, rfl, List.prefix_iff_eq_take.mpr htake.symm⟩
  · rintro ⟨stem, _, hs, ⟨⟩, hprefix⟩
    exact ⟨stem, hs, (List.prefix_iff_eq_take.mp hprefix).symm⟩

theorem root_read : (∃ x, (do let stem ← pathParts L root return decide (List.take stem.length parts = stem) :
      Except PlanError Bool) = .ok x) ↔ ∃ stem, pathParts L root = .ok stem := by
  simp only [bind_ok, pure_ok]
  constructor
  · rintro ⟨_, stem, hs, -⟩
    exact ⟨stem, hs⟩
  · rintro ⟨stem, hs⟩
    exact ⟨_, stem, hs, rfl⟩

theorem covered_reached (h : covered L path roots = .ok true) : ∃ before root after,
    roots = before ++ root :: after ∧ (∀ b ∈ before, ∃ stem, pathParts L b = .ok stem) ∧
      Below L root path := by
  simp only [covered, bind_ok] at h
  obtain ⟨parts, hp, hany⟩ := h
  obtain ⟨before, root, after, rfl, hbefore, hroot⟩ := anyM_true hany
  exact ⟨before, root, after, rfl, fun b hb => root_read.mp ⟨_, hbefore b hb⟩, (root_covers hp).mp hroot⟩

theorem covered_below (h : covered L path roots = .ok true) : ∃ root ∈ roots, Below L root path := by
  obtain ⟨before, root, after, rfl, -, hroot⟩ := covered_reached h
  exact ⟨root, by simp, hroot⟩

theorem covered_of_reached (hbefore : ∀ b ∈ before, ∃ stem, pathParts L b = .ok stem)
    (h : Below L root path) : covered L path (before ++ root :: after) = .ok true := by
  obtain ⟨stem, parts, -, hp, -⟩ := id h
  exact bind_ok.mpr ⟨parts, hp, anyM_of_reached (fun b hb => root_read.mpr (hbefore b hb))
    ((root_covers hp).mpr h)⟩

theorem covered_of_below (hroots : ∀ root ∈ roots, ∃ stem, pathParts L root = .ok stem)
    (hm : root ∈ roots) (h : Below L root path) : covered L path roots = .ok true := by
  obtain ⟨before, after, rfl⟩ := List.append_of_mem hm
  exact covered_of_reached (fun b hb => hroots b (List.mem_append_left _ hb)) h

/-- What is covered by roots that are covered is covered: the first root that covers the one
in between covers the path, and those before it were read. -/
theorem covered_trans (h : covered L path roots = .ok true)
    (hroots : ∀ root ∈ roots, covered L root wide = .ok true) : covered L path wide = .ok true := by
  obtain ⟨root, hm, hbelow⟩ := covered_below h
  obtain ⟨before, above, after, rfl, hbefore, habove⟩ := covered_reached (hroots root hm)
  exact covered_of_reached hbefore (habove.trans hbelow)

theorem covered_path (h : covered L path roots = .ok true) : ∃ parts, pathParts L path = .ok parts := by
  obtain ⟨_, -, _, parts, -, hp, -⟩ := covered_below h
  exact ⟨parts, hp⟩

theorem covered_widened (h : covered L path narrow = .ok true) (hw : RootsWithin L narrow wide)
    (hroots : ∀ root ∈ wide, ∃ stem, pathParts L root = .ok stem) : covered L path wide = .ok true := by
  obtain ⟨root, hm, hbelow⟩ := covered_below h
  obtain ⟨stem, _, hs, -⟩ := id hbelow
  obtain ⟨above, hmabove, habove⟩ := hw root hm stem hs
  exact covered_of_below hroots hmabove (habove.trans hbelow)

-- Authorizing

structure Within (L : Library) (a c : Authorization) : Prop where
  read_paths : ∀ path ∈ a.read_paths, covered L path c.read_paths = .ok true
  write_paths : ∀ path ∈ a.write_paths, covered L path c.write_paths = .ok true
  leaves_git : ∀ path ∈ a.write_paths, throughGit L path = .ok false
  profile_refs : a.profile_refs ⊆ c.profile_refs
  budget_ref : a.budget_ref = c.budget_ref
  target_branch : a.target_branch = c.target_branch
  delivery : a.delivery = .none ∨ a.delivery = c.delivery
  checks : ∀ check, check ∈ a.checks ↔ check ∈ c.checks

theorem authorize_ok : authorize L a c = .ok u ↔ Within L a c := by
  simp only [authorize, bind_ok, ensure_ok]
  constructor
  · rintro ⟨r, hr, _, rfl, w, hw, _, rfl, g, hg, _, hgit, _, hrefs, _, hbudget, _, hbranch, _,
      hdelivery, _, hrequired, hchecks⟩
    simp only [Bool.not_eq_true', List.all_eq_true, decide_eq_true_eq, Bool.or_eq_true] at *
    subst hgit
    exact ⟨allM_true.mp hr, allM_true.mp hw, anyM_false.mp hg, hrefs, hbudget, hbranch, hdelivery,
      fun check => ⟨hchecks check, hrequired check⟩⟩
  · intro h
    refine ⟨true, allM_true.mpr h.read_paths, (), rfl, true, allM_true.mpr h.write_paths, (), rfl,
      false, anyM_false.mpr h.leaves_git, (), rfl, (), ?_, (), ?_, (), ?_, (), ?_, (), ?_, ?_⟩
    · simpa using fun ref href => h.profile_refs href
    · simpa using h.budget_ref
    · simpa using h.target_branch
    · simpa using h.delivery
    · simpa using fun check hc => (h.checks check).mpr hc
    · simpa using fun check hc => (h.checks check).mp hc

theorem Within.trans (h : Within L a b) (h' : Within L b c) : Within L a c where
  read_paths path hp := covered_trans (h.read_paths path hp) h'.read_paths
  write_paths path hp := covered_trans (h.write_paths path hp) h'.write_paths
  leaves_git := h.leaves_git
  profile_refs := List.Subset.trans h.profile_refs h'.profile_refs
  budget_ref := h.budget_ref.trans h'.budget_ref
  target_branch := h.target_branch.trans h'.target_branch
  delivery := by
    rcases h.delivery with hn | hb
    · exact .inl hn
    · rw [hb]
      exact h'.delivery
  checks check := (h.checks check).trans (h'.checks check)

-- The order of authorizations

/-- An amount that can be read is at most the other, which can be read then. -/
def AtMost (L : Library) (amount limit : String) : Prop :=
  ∀ n, units L amount = .ok n → ∃ m, units L limit = .ok m ∧ n ≤ m

/-- What routing is bound by is no more than in the other authorization. -/
structure Narrower (L : Library) (a c : AuthorizationV2) : Prop where
  channel_ids : a.channel_ids ⊆ c.channel_ids
  tools : a.tools ⊆ c.tools
  data_destinations : a.data_destinations ⊆ c.data_destinations
  required_capabilities : c.required_capabilities ⊆ a.required_capabilities
  currency_limits : ∀ currency amount, a.currency_limits.get? currency = some amount →
    ∃ limit, c.currency_limits.get? currency = some limit ∧ AtMost L amount limit
  max_attempt_duration_seconds : a.max_attempt_duration_seconds ≤ c.max_attempt_duration_seconds
  max_quality_repair_rounds : a.max_quality_repair_rounds ≤ c.max_quality_repair_rounds
  stage_permissions : ∀ rule_id grant, a.stage_permissions.get? rule_id = some grant →
    ∃ prior, c.stage_permissions.get? rule_id = some prior ∧
      (grant.normal = true → prior.normal = true) ∧ grant.quality_indices ⊆ prior.quality_indices

theorem atMost_refl : AtMost L amount amount := fun n hn => ⟨n, hn, le_refl n⟩

theorem Narrower.refl (a : AuthorizationV2) : Narrower L a a where
  channel_ids := List.Subset.refl _
  tools := List.Subset.refl _
  data_destinations := List.Subset.refl _
  required_capabilities := List.Subset.refl _
  currency_limits _ amount ha := ⟨amount, ha, atMost_refl⟩
  max_attempt_duration_seconds := le_refl _
  max_quality_repair_rounds := le_refl _
  stage_permissions _ grant ha := ⟨grant, ha, id, List.Subset.refl _⟩

theorem Narrower.trans (h : Narrower L a b) (h' : Narrower L b c) : Narrower L a c where
  channel_ids := List.Subset.trans h.channel_ids h'.channel_ids
  tools := List.Subset.trans h.tools h'.tools
  data_destinations := List.Subset.trans h.data_destinations h'.data_destinations
  required_capabilities := List.Subset.trans h'.required_capabilities h.required_capabilities
  currency_limits currency amount ha := by
    obtain ⟨between, hb, hab⟩ := h.currency_limits currency amount ha
    obtain ⟨limit, hc, hbc⟩ := h'.currency_limits currency between hb
    refine ⟨limit, hc, fun n hn => ?_⟩
    obtain ⟨m, hm, hnm⟩ := hab n hn
    obtain ⟨k, hk, hmk⟩ := hbc m hm
    exact ⟨k, hk, hnm.trans hmk⟩
  max_attempt_duration_seconds := h.max_attempt_duration_seconds.trans h'.max_attempt_duration_seconds
  max_quality_repair_rounds := h.max_quality_repair_rounds.trans h'.max_quality_repair_rounds
  stage_permissions rule_id grant ha := by
    obtain ⟨between, hb, hnormal, hindices⟩ := h.stage_permissions rule_id grant ha
    obtain ⟨prior, hc, hnormal', hindices'⟩ := h'.stage_permissions rule_id between hb
    exact ⟨prior, hc, hnormal' ∘ hnormal, List.Subset.trans hindices hindices'⟩

-- Conforming

/-- The budget of the authorization bounds its attempts and every one of its amounts. -/
def Budgeted (L : Library) (a : AuthorizationV2) (config : Configuration) : Prop :=
  ∃ budget longest, config.budget a.budget_ref = some budget ∧
    budget.max_duration_seconds = some longest ∧ a.max_attempt_duration_seconds ≤ longest ∧
    ∀ currency amount, a.currency_limits.get? currency = some amount →
      ∃ limit n m, budget.currency_limits.get? currency = some (some limit) ∧
        units L amount = .ok n ∧ units L limit = .ok m ∧ n ≤ m

structure Conforms (L : Library) (a : AuthorizationV2) (policy : ExecutionPolicy)
    (config : Configuration) : Prop where
  checks : checksResolved policy a.checks = true
  channel_ids : a.channel_ids.Nodup ∧ a.channel_ids ⊆ policy.constraints.channel_ids
  tools : a.tools.Nodup ∧ a.tools ⊆ policy.constraints.tools
  data_destinations : a.data_destinations.Nodup ∧
    a.data_destinations ⊆ policy.constraints.data_destinations
  profile_refs : a.profile_refs.Nodup ∧ a.profile_refs ⊆ policy.constraints.profile_refs
  required_capabilities : policy.constraints.required_capabilities ⊆ a.required_capabilities
  budget : Budgeted L a config
  max_quality_repair_rounds : a.max_quality_repair_rounds ≤ config.rulebook.max_quality_repair_rounds
  stage_permissions : ∀ rule_id grant, a.stage_permissions.get? rule_id = some grant →
    ∃ rule, ruleOf config.rulebook.toRulebook rule_id = some rule ∧ grant.quality_indices.Nodup ∧
      ∀ index ∈ grant.quality_indices, index < rule.quality_escalation_groups.length

theorem namesAllowed_iff : namesAllowed values ceiling hard = true ↔
    (values.Nodup ∧ values ⊆ hard) ∧ values ⊆ ceiling := by
  simp only [namesAllowed, Bool.and_eq_true, decide_eq_true_eq, List.all_eq_true]
  constructor
  · rintro ⟨hd, hall⟩
    exact ⟨⟨hd, fun name hn => (hall name hn).2⟩, fun name hn => (hall name hn).1⟩
  · rintro ⟨⟨hd, hhard⟩, hceiling⟩
    exact ⟨hd, fun name hn => ⟨hceiling hn, hhard hn⟩⟩

theorem amountWithin_ok : amountWithin L amount limit = .ok u ↔
    ∃ bound n m, limit = some bound ∧ units L amount = .ok n ∧ units L bound = .ok m ∧ n ≤ m := by
  simp only [amountWithin, bind_ok, need_ok, ensure_ok, decide_eq_true_eq]
  constructor
  · rintro ⟨bound, hl, n, hn, m, hm, hle⟩
    exact ⟨bound, n, m, hl, hn, hm, hle⟩
  · rintro ⟨bound, n, m, hl, hn, hm, hle⟩
    exact ⟨bound, hl, n, hn, m, hm, hle⟩

theorem each_units {f : α → Except ε Unit} : (∃ us, each f l = .ok us) ↔ ∀ a ∈ l, f a = .ok () := by
  constructor
  · rintro ⟨us, h⟩ a ha
    obtain ⟨⟨⟩, hf, -⟩ := each_ok h a ha
    exact hf
  · intro h
    exact ⟨_, each_map h⟩

theorem amountWithin_both : each (amountWithin L amount) [one, other] = .ok us ↔ us = [(), ()] ∧
    amountWithin L amount one = .ok () ∧ amountWithin L amount other = .ok () := by
  simp only [each, bind_ok, pure_ok]
  constructor
  · rintro ⟨⟨⟩, h, _, ⟨⟨⟩, h', _, ⟨⟩, rfl⟩, rfl⟩
    exact ⟨rfl, h, h'⟩
  · rintro ⟨rfl, h, h'⟩
    exact ⟨(), h, _, ⟨(), h', _, rfl, rfl⟩, rfl⟩

theorem amounts_ok {limits ceiling : Dict String String} {bounds : Dict String (Option String)} :
    (∃ us, each (fun (currency, amount) => each (amountWithin L amount)
        [ceiling.get? currency, (bounds.get? currency).join]) limits.entries = .ok us) ↔
      (∀ currency amount, limits.get? currency = some amount → ∃ limit,
        ceiling.get? currency = some limit ∧ AtMost L amount limit) ∧
      ∀ currency amount, limits.get? currency = some amount → ∃ limit n m,
        bounds.get? currency = some (some limit) ∧ units L amount = .ok n ∧ units L limit = .ok m ∧
          n ≤ m := by
  constructor
  · rintro ⟨us, h⟩
    have hboth : ∀ currency amount, limits.get? currency = some amount →
        amountWithin L amount (ceiling.get? currency) = .ok () ∧
          amountWithin L amount (bounds.get? currency).join = .ok () := by
      intro currency amount ha
      obtain ⟨_, hf, -⟩ := each_ok h (currency, amount) (Dict.get?_eq_some.mp ha)
      exact (amountWithin_both.mp hf).2
    refine ⟨fun currency amount ha => ?_, fun currency amount ha => ?_⟩
    · obtain ⟨limit, n, m, hl, hn, hm, hle⟩ := amountWithin_ok.mp (hboth currency amount ha).1
      refine ⟨limit, hl, fun k hk => ⟨m, hm, ?_⟩⟩
      cases hn.symm.trans hk
      exact hle
    · obtain ⟨limit, n, m, hl, hn, hm, hle⟩ := amountWithin_ok.mp (hboth currency amount ha).2
      exact ⟨limit, n, m, Option.join_eq_some_iff.mp hl, hn, hm, hle⟩
  · rintro ⟨hceiling, hbudget⟩
    refine ⟨_, each_map (g := fun _ => [(), ()]) fun e he => ?_⟩
    have ha : limits.get? e.1 = some e.2 := Dict.get?_eq_some.mpr he
    obtain ⟨limit, hl, hmost⟩ := hceiling e.1 e.2 ha
    obtain ⟨bound, n, m, hb, hn, hm, hle⟩ := hbudget e.1 e.2 ha
    obtain ⟨k, hk, hnk⟩ := hmost n hn
    exact amountWithin_both.mpr ⟨rfl, amountWithin_ok.mpr ⟨limit, n, k, hl, hn, hk, hnk⟩,
      amountWithin_ok.mpr ⟨bound, n, m, by simp [hb], hn, hm, hle⟩⟩

theorem stageAllowed_iff : stageAllowed ceiling book rule_id grant = true ↔
    (∃ prior, ceiling.stage_permissions.get? rule_id = some prior ∧
      (grant.normal = true → prior.normal = true) ∧ grant.quality_indices ⊆ prior.quality_indices) ∧
    ∃ rule, ruleOf book rule_id = some rule ∧ grant.quality_indices.Nodup ∧
      ∀ index ∈ grant.quality_indices, index < rule.quality_escalation_groups.length := by
  cases hprior : ceiling.stage_permissions.get? rule_id with
  | none => simp [stageAllowed, hprior]
  | some prior =>
    cases hrule : ruleOf book rule_id with
    | none => simp [stageAllowed, hprior, hrule]
    | some rule =>
      simp only [stageAllowed, hprior, hrule, Bool.and_eq_true, Bool.or_eq_true, Bool.not_eq_true',
        decide_eq_true_eq, List.all_eq_true, Option.some.injEq, exists_eq_left']
      constructor
      · rintro ⟨⟨⟨hnormal, hd⟩, hprior⟩, hlength⟩
        refine ⟨⟨fun hn => ?_, hprior⟩, hd, hlength⟩
        rcases hnormal with hno | hyes
        · rw [hn] at hno
          cases hno
        · exact hyes
      · rintro ⟨⟨hnormal, hprior⟩, hd, hlength⟩
        refine ⟨⟨⟨?_, hd⟩, fun index hi => hprior hi⟩, hlength⟩
        cases hn : grant.normal with
        | false => exact .inl rfl
        | true => exact .inr (hnormal hn)

theorem validateAuthorization_ok : validateAuthorization L a c policy config = .ok u ↔
    Conforms L a policy config ∧ Narrower L a c := by
  simp only [validateAuthorization, bind_ok, ensure_ok, need_ok, namesAllowed_iff, Bool.and_eq_true,
    decide_eq_true_eq, List.all_eq_true, List.mem_append, le_min_iff, Int.ofNat_le]
  constructor
  · rintro ⟨_, hchecks, _, hchannels, _, htools, _, hdestinations, _, hrefs, _, hrequired, budget,
      hbudget, us, hamounts, longest, hlongest, _, hduration, _, hrounds, hstages⟩
    obtain ⟨hceiling, hbound⟩ := amounts_ok.mp ⟨us, hamounts⟩
    have hstage : ∀ rule_id grant, a.stage_permissions.get? rule_id = some grant →
        stageAllowed c config.rulebook.toRulebook rule_id grant = true := fun rule_id grant hg =>
      hstages (rule_id, grant) (Dict.get?_eq_some.mp hg)
    exact ⟨{
        checks := hchecks
        channel_ids := hchannels.1
        tools := htools.1
        data_destinations := hdestinations.1
        profile_refs := ⟨hrefs.1, fun ref href => hrefs.2 ref href⟩
        required_capabilities := fun name hn => hrequired name (.inr hn)
        budget := ⟨budget, longest, hbudget, hlongest, hduration.2, hbound⟩
        max_quality_repair_rounds := hrounds.2
        stage_permissions := fun rule_id grant hg => (stageAllowed_iff.mp (hstage rule_id grant hg)).2 }, {
        channel_ids := hchannels.2
        tools := htools.2
        data_destinations := hdestinations.2
        required_capabilities := fun name hn => hrequired name (.inl hn)
        currency_limits := hceiling
        max_attempt_duration_seconds := hduration.1
        max_quality_repair_rounds := hrounds.1
        stage_permissions := fun rule_id grant hg => (stageAllowed_iff.mp (hstage rule_id grant hg)).1 }⟩
  · rintro ⟨hc, hn⟩
    obtain ⟨budget, longest, hbudget, hlongest, hduration, hbound⟩ := hc.budget
    obtain ⟨us, hamounts⟩ := amounts_ok.mpr ⟨hn.currency_limits, hbound⟩
    refine ⟨(), hc.checks, (), ⟨hc.channel_ids, hn.channel_ids⟩, (), ⟨hc.tools, hn.tools⟩, (),
      ⟨hc.data_destinations, hn.data_destinations⟩, (),
      ⟨hc.profile_refs.1, fun ref href => hc.profile_refs.2 href⟩, (), ?_, budget, hbudget, us,
      hamounts, longest, hlongest, (), ⟨hn.max_attempt_duration_seconds, hduration⟩, (),
      ⟨hn.max_quality_repair_rounds, hc.max_quality_repair_rounds⟩, ?_⟩
    · rintro name (hname | hname)
      · exact hn.required_capabilities hname
      · exact hc.required_capabilities hname
    · intro e he
      have hg := Dict.get?_eq_some.mpr he
      exact stageAllowed_iff.mpr ⟨hn.stage_permissions e.1 e.2 hg, hc.stage_permissions e.1 e.2 hg⟩

-- Widening

/-- A ceiling that allows all the other does. What a ceiling fixes and does not bound is the same:
the checks, the budget and the branch. -/
structure Widened (L : Library) (narrow wide : AuthorizationV2) : Prop
    extends Narrower L narrow wide where
  read_paths : RootsWithin L narrow.read_paths wide.read_paths
  write_paths : RootsWithin L narrow.write_paths wide.write_paths
  profile_refs : narrow.profile_refs ⊆ wide.profile_refs
  delivery : narrow.delivery = .none ∨ narrow.delivery = wide.delivery
  checks : ∀ check, check ∈ narrow.checks ↔ check ∈ wide.checks
  budget_ref : narrow.budget_ref = wide.budget_ref
  target_branch : narrow.target_branch = wide.target_branch

theorem Within.roots (h : Within L c c) : (∀ root ∈ c.read_paths, ∃ stem, pathParts L root = .ok stem) ∧
    ∀ root ∈ c.write_paths, ∃ stem, pathParts L root = .ok stem :=
  ⟨fun root hr => covered_path (h.read_paths root hr), fun root hr => covered_path (h.write_paths root hr)⟩

theorem Within.widened (h : Within L a narrow.toAuthorization)
    (hw : Widened L narrow wide) (hself : Within L wide.toAuthorization wide.toAuthorization) :
    Within L a wide.toAuthorization where
  read_paths path hp := covered_widened (h.read_paths path hp) hw.read_paths hself.roots.1
  write_paths path hp := covered_widened (h.write_paths path hp) hw.write_paths hself.roots.2
  leaves_git := h.leaves_git
  profile_refs := List.Subset.trans h.profile_refs hw.profile_refs
  budget_ref := h.budget_ref.trans hw.budget_ref
  target_branch := h.target_branch.trans hw.target_branch
  delivery := by
    rcases h.delivery with hn | hsame
    · exact .inl hn
    · rw [hsame]
      exact hw.delivery
  checks check := (h.checks check).trans (hw.checks check)

theorem validatePlan_widened
    (h : validatePlan L plan narrow.toAuthorization = .ok ()) (hw : Widened L narrow wide)
    (hself : authorize L wide.toAuthorization wide.toAuthorization = .ok ()) :
    validatePlan L plan wide.toAuthorization = .ok () := by
  simp only [validatePlan, bind_ok] at h ⊢
  obtain ⟨_, hauthorize, hrest⟩ := h
  exact ⟨(), authorize_ok.mpr ((authorize_ok.mp hauthorize).widened hw (authorize_ok.mp hself)), hrest⟩

end Karajan.Planner
