import Karajan.Candidates.History

/-!
# The gate passes on complete evidence

Evidence that passed is evidence of the candidate as it is, since a candidate
never changes; and a review that passed names only evidence that was there
before it. So a check that is recorded after a review is not one it names.
-/

namespace Karajan.Candidates

open Check
open GitTree (Bytes)
variable {store : Store} {id : String}

-- What passed evidence says

def LogKept (log : Option Artifact) : Prop := ∃ reference, log = some reference ∧ 0 < reference.size

structure PassedCheck (c : Candidate) (spec : CheckResult) (log : Option Artifact) : Prop where
  completed : spec.outcome = .completed
  exit_code : spec.exit_code = some 0
  log : LogKept log
  policy : spec.policy_sha256 = c.policy_sha256
  input : spec.input_sha256 = c.input_sha256
  check : ∃ check, c.request.policy.checks.find? (·.id = spec.check_id) = some check ∧
    spec.check_revision = check.revision ∧ spec.environment_sha256 = check.environment_sha256

structure PassedReview (c : Candidate) (spec : ReviewResult) (log : Option Artifact) : Prop where
  verdict : spec.verdict = .passed
  findings : ∀ finding ∈ spec.findings, finding.blocking = false
  log : LogKept log
  policy : spec.policy_sha256 = c.policy_sha256
  input : spec.input_sha256 = c.input_sha256
  environment : spec.environment_sha256 = c.request.policy.review.environment_sha256
  revision : spec.review_revision = c.request.policy.review.revision
  approved : ∃ reviewer ∈ c.request.policy.review.approved_reviewers,
    reviewer.profile_id = spec.actor.profile_id ∧
    reviewer.profile_revision = spec.actor.profile_revision ∧
    reviewer.model_family = spec.actor.model_family
  reasoning : spec.author_reasoning_included = false
  apart : ∀ author ∈ c.request.authors,
    author.attempt_id ≠ spec.actor.attempt_id ∧ author.context_id ≠ spec.actor.context_id
  families : c.request.task_class = .t3 → named spec.actor.model_family = true ∧
    ∀ author ∈ c.request.authors,
      named author.model_family = true ∧ author.model_family ≠ spec.actor.model_family

/-- Evidence that passed is of a candidate of the store, and says what its kind has to say. -/
def Proven (store : Store) (item : Evidence) : Prop :=
  item.status = .passed → ∃ c ∈ store.candidates, c.id = item.input.candidate_id ∧
    (∀ spec, item.observation = .check spec → PassedCheck c spec item.log) ∧
    (∀ spec, item.observation = .review spec → PassedReview c spec item.log)

def NamesOnly (evidence : List Evidence) (item : Evidence) : Prop :=
  item.status = .passed → ∀ spec, item.observation = .review spec →
    ∀ id ∈ spec.check_evidence_ids, id ∈ evidence.map (·.id)

theorem Store.get_ok (h : store.get id = .ok c) : c ∈ store.candidates ∧ c.id = id := by
  have hfind := need_ok.mp h
  exact ⟨List.mem_of_find?_eq_some hfind, by simpa using List.find?_some hfind⟩

theorem optionalLog_kept (h : optionalLog lib objects log = .ok reference)
    (hlog : logged log = true) : LogKept reference := by
  cases log with
  | none => cases hlog
  | some content =>
    simp only [optionalLog, map_ok, artifact, bind_ok, pure_ok] at h
    obtain ⟨_, ⟨-, -, -, -, rfl⟩, rfl⟩ := h
    refine ⟨_, rfl, List.length_pos_iff.mpr ?_⟩
    simpa [logged] using hlog

theorem CheckResult.observed_passed {spec : CheckResult} (h : spec.observed log = .passed) :
    spec.outcome = .completed ∧ spec.exit_code = some 0 ∧ logged log = true := by
  simp only [CheckResult.observed] at h
  split at h
  · cases h
  case isFalse hcompleted =>
    split at h
    · cases h
    case h_2 exit_code hexit =>
      split at h
      · cases h
      case isFalse hzero =>
        split at h
        · cases h
        case isFalse hlog =>
          rw [hexit]
          exact ⟨by simpa using hcompleted, by simpa using hzero, by simpa using hlog⟩

theorem record_check_ok (h : record_check lib objects store spec log id now = .ok item) :
    item.observation = .check spec ∧ Proven store item := by
  simp only [record_check, bind_ok, pure_ok] at h
  obtain ⟨c, hget, reference, hlog, rfl⟩ := h
  refine ⟨rfl, fun hpassed => ⟨c, (Store.get_ok hget).1, (Store.get_ok hget).2, ?_, by simp⟩⟩
  rintro _ ⟨⟩
  split at hpassed
  case isFalse => cases hpassed
  case isTrue hbound =>
    obtain ⟨hcompleted, hexit, hlogged⟩ := CheckResult.observed_passed hpassed
    simp only [CheckResult.bound, Bool.and_eq_true, decide_eq_true_eq, Option.any_eq_true] at hbound
    obtain ⟨⟨hpolicy, hinput⟩, check, hfind, hrevision, henvironment⟩ := hbound
    exact ⟨hcompleted, hexit, optionalLog_kept hlog hlogged, hpolicy, hinput, check, hfind,
      hrevision.symm, henvironment.symm⟩

theorem ReviewResult.observed_passed {spec : ReviewResult} (h : spec.observed log = .passed) :
    spec.verdict = .passed ∧ (∀ finding ∈ spec.findings, finding.blocking = false) ∧
      logged log = true := by
  simp only [ReviewResult.observed] at h
  split at h
  · cases h
  case isFalse hfindings =>
    split at h
    · cases h
    case isFalse hlog =>
      have hverdict : spec.verdict = .passed := by
        cases hv : spec.verdict <;> simp_all [Verdict.status]
      refine ⟨hverdict, by simpa using hfindings, ?_⟩
      simpa [hverdict] using hlog

theorem lastCheck?_mem (h : lastCheck? evidence check_id = some item) :
    item ∈ evidence ∧ ∃ spec, item.observation = .check spec ∧ spec.check_id = check_id := by
  have hmem := List.mem_of_getLast? h
  rw [List.mem_filter] at hmem
  refine ⟨hmem.1, ?_⟩
  cases hobservation : item.observation with
  | check spec => exact ⟨spec, rfl, by simpa [Evidence.check?, hobservation] using hmem.2⟩
  | review => simp [Evidence.check?, hobservation] at hmem

theorem mem_ofCandidate : item ∈ store.ofCandidate id ↔
    item ∈ store.evidence ∧ item.input.candidate_id = id := by simp [Store.ofCandidate]

theorem reasons_nil {spec : ReviewResult} (h : spec.reasons lib objects store c = []) : spec.bound c = true ∧
    spec.checksNamed lib objects ((store.ofCandidate spec.candidate_id).filter (·.check?.isSome))
      c.request.policy.checks = true ∧
    spec.independent c = true ∧ spec.familyIndependent c = true := by
  simp only [ReviewResult.reasons, List.append_eq_nil_iff, ite_eq_left_iff, reduceCtorEq,
    imp_false, not_not, Bool.and_eq_true] at h
  exact ⟨h.1.1.1, h.1.1.2, h.1.2, h.2⟩

theorem passedReview {spec : ReviewResult} (hreasons : spec.reasons lib objects store c = [])
    (hobserved : spec.observed log = .passed) (hlog : optionalLog lib files log = .ok reference) :
    PassedReview c spec reference := by
  obtain ⟨hverdict, hfindings, hlogged⟩ := ReviewResult.observed_passed hobserved
  obtain ⟨hbound, -, hindependent, hfamily⟩ := reasons_nil hreasons
  simp only [ReviewResult.bound, Bool.and_eq_true, decide_eq_true_eq] at hbound
  simp only [ReviewResult.independent, Bool.and_eq_true, Option.any_eq_true, decide_eq_true_eq,
    Bool.not_eq_true', List.all_eq_true] at hindependent
  simp only [ReviewResult.familyIndependent, Bool.or_eq_true, Bool.and_eq_true, decide_eq_true_eq,
    List.all_eq_true] at hfamily
  obtain ⟨⟨⟨hpolicy, hinput⟩, henvironment⟩, hrevision⟩ := hbound
  obtain ⟨⟨⟨reviewer, hqualifier, hsame⟩, hreasoning⟩, hapart⟩ := hindependent
  have hprofile := List.find?_some hqualifier
  simp only [Bool.and_eq_true, decide_eq_true_eq] at hprofile
  exact {
    verdict := hverdict
    findings := hfindings
    log := optionalLog_kept hlog hlogged
    policy := hpolicy
    input := hinput
    environment := henvironment
    revision := hrevision
    approved := ⟨reviewer, List.mem_of_find?_eq_some hqualifier, hprofile.1, hprofile.2, hsame⟩
    reasoning := hreasoning
    apart := hapart
    families := fun ht3 => hfamily.resolve_left (not_not_intro ht3) }

theorem checksNamed_mem {spec : ReviewResult}
    (h : spec.checksNamed lib objects checks required = true) (hid : id ∈ spec.check_evidence_ids) :
    ∃ item ∈ checks, item.id = id := by
  simp only [ReviewResult.checksNamed, Bool.and_eq_true, decide_eq_true_eq] at h
  have hmem := (sortedTexts_eq.mp h.2).mem_iff.mpr hid
  obtain ⟨check, -, hcheck⟩ := List.mem_filterMap.mp hmem
  obtain ⟨item, hitem, rfl⟩ := Option.map_eq_some_iff.mp hcheck
  exact ⟨item, (lastCheck?_mem hitem).1, rfl⟩

theorem record_review_ok (h : record_review lib objects store spec log id now = .ok item) :
    item.observation = .review spec ∧ Proven store item ∧ NamesOnly store.evidence item := by
  simp only [record_review, bind_ok, pure_ok] at h
  obtain ⟨c, hget, reference, hlog, rfl⟩ := h
  refine ⟨rfl, fun hpassed => ⟨c, (Store.get_ok hget).1, (Store.get_ok hget).2, by simp, ?_⟩, ?_⟩
  · rintro _ ⟨⟩
    split at hpassed
    case isFalse => cases hpassed
    case isTrue hreasons => exact passedReview hreasons hpassed hlog
  · rintro hpassed _ ⟨⟩ id hid
    split at hpassed
    case isFalse => cases hpassed
    case isTrue hreasons =>
      obtain ⟨item, hitem, rfl⟩ := checksNamed_mem (reasons_nil hreasons).2.1 hid
      exact List.mem_map_of_mem (mem_ofCandidate.mp (List.mem_filter.mp hitem).1).1

theorem Proven.mono (h : Proven store item)
    (hsub : store.candidates ⊆ store'.candidates) : Proven store' item := by
  intro hpassed
  obtain ⟨c, hc, hrest⟩ := h hpassed
  exact ⟨c, hsub hc, hrest⟩

theorem NamesOnly.mono (h : NamesOnly evidence item) (hsub : evidence ⊆ evidence') : NamesOnly evidence' item :=
  fun hpassed spec hspec id hid => List.map_subset _ hsub (h hpassed spec hspec id hid)

-- What holds of every store

def CheckIds (c : Candidate) : Prop := (c.request.policy.checks.map (·.id)).Nodup

structure Sound (s : State) : Prop where
  check_ids : ∀ c ∈ s.store.candidates, CheckIds c
  ids : (s.store.candidates.map (·.id)).Nodup
  evidence_ids : (s.store.evidence.map (·.id)).Nodup
  proven : ∀ item ∈ s.store.evidence, Proven s.store item
  earlier : ∀ before item after, s.store.evidence = before ++ item :: after → NamesOnly before item
  ready : ∀ item ∈ s.prepared, Proven s.store item ∧ NamesOnly s.store.evidence item

theorem Freeze.check_ok {spec : Freeze} (h : spec.check lib = .ok u) :
    (spec.policy.checks.map (·.id)).Nodup ∧ spec.writerStopped = true := by
  simp only [Freeze.check, bind_ok, ensure_ok, Bool.and_eq_true, decide_eq_true_eq] at h
  obtain ⟨-, -, -, hpolicy, hwriter⟩ := h
  exact ⟨hpolicy.1, hwriter⟩

theorem capture_ok (h : capture lib host store spec workspace = .ok found) :
    spec.check lib = .ok () ∧ ∃ baseline, store.baseline? spec.baseline_id = some baseline ∧
      ∃ entries, workspace = .ok entries ∧ captured lib host baseline spec entries = .ok found := by
  simp only [capture, bind_ok, need_ok] at h
  obtain ⟨u, hcheck, baseline, hbaseline, entries, hentries, hcaptured⟩ := h
  exact ⟨hcheck, baseline, hbaseline, entries, hentries, hcaptured⟩

theorem captured_request (h : captured lib host baseline spec entries = .ok found) : found.request = spec := by
  simp only [captured, bind_ok, pure_ok] at h
  obtain ⟨files, -, manifest, -, -, -, tree_sha, -, rfl⟩ := h
  rfl

theorem sourceCandidate_mem (h : sourceCandidate lib store command = .ok source) : source ∈ store.candidates := by
  simp only [sourceCandidate, checkedCandidate, bind_ok, pure_ok, need_ok] at h
  obtain ⟨_, ⟨record, hrecord, -, -, -, -, -, -, rfl⟩, -, -, rfl⟩ := h
  exact List.mem_of_find?_eq_some hrecord

theorem Committed.check_ids (h : Committed lib ok store c)
    (hs : ∀ c ∈ store.candidates, CheckIds c) : CheckIds c := by
  cases h with
  | frozen hok hcapture =>
    obtain ⟨hcheck, baseline, -, entries, -, hcaptured⟩ := capture_ok hcapture
    cases captured_request hcaptured
    exact (Freeze.check_ok hcheck).1
  | rebound hcommand hfirst hsource hcheck =>
    have hids : CheckIds _ := hs _ (sourceCandidate_mem hsource)
    exact hids

theorem Moves.sound (h : Moves lib ok s t) (hs : Sound s) : Sound t := by
  cases h with
  | same => exact hs
  | registered b hnew hid =>
    exact { hs with }
  | candidate c hfresh hcommitted =>
    have hsub : s.store.candidates ⊆ s.store.candidates ++ [c] := List.subset_append_left _ _
    refine ⟨?_, nodup_snoc hs.ids fun r hr => (hfresh r hr).1, hs.evidence_ids,
      fun item hitem => (hs.proven item hitem).mono hsub, hs.earlier,
      fun item hitem => ⟨(hs.ready item hitem).1.mono hsub, (hs.ready item hitem).2⟩⟩
    intro r hr
    rcases List.mem_append.mp hr with hr | hr
    · exact hs.check_ids r hr
    · cases List.mem_singleton.mp hr
      exact hcommitted.check_ids hs.check_ids
  | prepared record hprepared =>
    refine { hs with ready := ?_ }
    intro item hitem
    rcases List.mem_append.mp hitem with hitem | hitem
    · exact hs.ready item hitem
    · cases List.mem_singleton.mp hitem
      cases hprepared with
      | check hrecord =>
        obtain ⟨hobservation, hproven⟩ := record_check_ok hrecord
        exact ⟨hproven, fun _ spec hspec => by simp [hobservation] at hspec⟩
      | review hrecord => exact (record_review_ok hrecord).2
  | forgotten index =>
    exact ⟨hs.check_ids, hs.ids, hs.evidence_ids, hs.proven, hs.earlier,
      fun item hitem => hs.ready item ((List.eraseIdx_sublist _ _).subset hitem)⟩
  | saved index record hrecord hkey hid =>
    have hready := hs.ready record (List.mem_of_getElem? hrecord)
    refine ⟨hs.check_ids, hs.ids, nodup_snoc hs.evidence_ids hid, ?_, ?_, ?_⟩
    · intro item hitem
      rcases List.mem_append.mp hitem with hitem | hitem
      · exact hs.proven item hitem
      · cases List.mem_singleton.mp hitem
        exact hready.1
    · intro before item after hsplit
      rcases snoc_split hsplit with ⟨rest, hrest⟩ | ⟨rfl, rfl⟩
      · exact hs.earlier before item rest hrest
      · exact hready.2
    · intro item hitem
      have hitem := hs.ready item ((List.eraseIdx_sublist _ _).subset hitem)
      exact ⟨hitem.1, hitem.2.mono (List.subset_append_left _ _)⟩

theorem sound_empty : Sound empty := by
  constructor <;> simp [empty]

theorem sound_reach (h : (system lib).Reach System.free s) : Sound s := by
  refine h.invariant ?_ fun s a hs _ => (step_moves s a (hosts_any a)).sound hs
  rintro i rfl
  exact sound_empty

-- A gate that passes

def lastReviewOf (evidence : List Evidence) : Option (Evidence × ReviewResult) :=
  (evidence.filterMap fun item => item.review?.map (item, ·)).getLast?

/-- The evidence of a candidate is complete: the last of each check of its policy passed, and
the last review passed and names exactly these. -/
structure Complete (lib : Library) (logs : Directory) (c : Candidate) (evidence : List Evidence) :
    Prop where
  checks : ∀ check ∈ c.request.policy.checks, ∃ item spec,
    lastCheck? evidence check.id = some item ∧ item.observation = .check spec ∧
    spec.check_id = check.id ∧ PassedCheck c spec item.log ∧
    spec.check_revision = check.revision ∧ spec.environment_sha256 = check.environment_sha256 ∧
    availableLog lib logs item = true
  review : ∃ item spec, lastReviewOf evidence = some (item, spec) ∧ item.observation = .review spec ∧
    PassedReview c spec item.log ∧ availableLog lib logs item = true ∧
    spec.check_evidence_ids.Perm
      (c.request.policy.checks.filterMap fun check => (lastCheck? evidence check.id).map (·.id))

def effective (status : Evidence → Status) (evidence : List Evidence) : List EffectiveEvidence :=
  evidence.map fun item => { item with effective_status := status item }

section
theorem lastCheckOf_effective (check_id : String) : lastCheckOf (effective status evidence) check_id =
    (lastCheck? evidence check_id).map fun item => { item with effective_status := status item } := by
  simp only [lastCheckOf, effective, lastCheck?, List.filter_map, List.getLast?_map]
  rfl

theorem lastReview?_effective : lastReview? (effective status evidence) =
    (lastReviewOf evidence).map fun r => ({ r.1 with effective_status := status r.1 }, r.2) := by
  simp only [lastReview?, effective, lastReviewOf, List.filterMap_map, ← List.getLast?_map, List.map_filterMap]
  congr 2
  funext item
  cases hreview : item.review? <;> simp [hreview]

end

section
theorem noteUnavailable_ne_nil (h : reasons ≠ []) : noteUnavailable reasons status ≠ [] := by
  simp only [noteUnavailable]
  split <;> simp [h]

theorem checkReasons_nil (h : checkReasons evidence reasons check = []) : reasons = [] ∧
    ∃ last, lastCheckOf evidence check.id = some last ∧ last.effective_status = .passed := by
  simp only [checkReasons] at h
  split at h
  · simp at h
  case h_2 last hlast =>
    split at h
    · exact absurd h (noteUnavailable_ne_nil (by simp))
    case isFalse hpassed => exact ⟨h, last, hlast, by simpa using hpassed⟩

theorem foldl_checkReasons_nil {checks : List CheckPolicy}
    (h : checks.foldl (checkReasons evidence) reasons = []) : reasons = [] ∧
      ∀ check ∈ checks, ∃ last, lastCheckOf evidence check.id = some last ∧
        last.effective_status = .passed := by
  induction checks generalizing reasons with
  | nil => exact ⟨h, by simp⟩
  | cons check checks ih =>
    obtain ⟨hfirst, hrest⟩ := ih h
    obtain ⟨hreasons, hcheck⟩ := checkReasons_nil hfirst
    refine ⟨hreasons, fun check' hmem => ?_⟩
    rcases List.mem_cons.mp hmem with rfl | hmem
    · exact hcheck
    · exact hrest check' hmem

theorem reviewReasons_nil (h : reviewReasons evidence check_ids reasons = []) : reasons = [] ∧
    ∃ last review, lastReview? evidence = some (last, review) ∧ last.effective_status = .passed ∧
      review.check_evidence_ids.Perm check_ids := by
  simp only [reviewReasons] at h
  split at h
  · simp at h
  case h_2 last review hlast =>
    split at h
    · simp at h
    case isFalse hsame =>
      split at h
      · exact absurd h (noteUnavailable_ne_nil (by simp))
      case isFalse hpassed =>
        exact ⟨h, last, review, hlast, by simpa using hpassed, sortedTexts_eq.mp (by simpa using hsame)⟩

end

theorem effectiveStatus_passed (h : effectiveStatus lib logs outdated item = .passed) :
    item.status = .passed ∧ availableLog lib logs item = true := by
  simp only [effectiveStatus] at h
  split at h
  · cases h
  case isFalse havailable =>
    split at h
    · cases h
    · exact ⟨h, by simpa using havailable⟩

structure Passes (lib : Library) (store forEvidence forLatest : Store) (artifacts logs : Directory)
    (current : CurrentContext) (c : Candidate) : Prop where
  mem : c ∈ store.candidates
  context : c.context = current
  latest : forLatest.latest c.series_id = some c.revision
  artifacts : ∀ entry ∈ c.manifest, available lib artifacts entry.artifact = true
  checks : ∀ check ∈ c.request.policy.checks, ∃ item,
    lastCheck? (forEvidence.ofCandidate c.id) check.id = some item ∧ item.status = .passed ∧
    availableLog lib logs item = true
  review : ∃ item spec, lastReviewOf (forEvidence.ofCandidate c.id) = some (item, spec) ∧
    item.status = .passed ∧ availableLog lib logs item = true ∧
    spec.check_evidence_ids.Perm (c.request.policy.checks.filterMap fun check =>
      (lastCheck? (forEvidence.ofCandidate c.id) check.id).map (·.id))

theorem gate_read {forEvidence forLatest : Store} (h : gate lib store forEvidence forLatest artifacts
    logs candidate_id current = .ok result) (hpassed : result.local_gate_passed = true) :
    ∃ c, c.id = candidate_id ∧ Passes lib store forEvidence forLatest artifacts logs current c := by
  simp only [gate, bind_ok, pure_ok] at h
  obtain ⟨c, hget, rfl⟩ := h
  obtain ⟨hmem, rfl⟩ := Store.get_ok hget
  refine ⟨c, rfl, ?_⟩
  simp only [GateResult.local_gate_passed, List.isEmpty_iff] at hpassed
  obtain ⟨hchecks, last, review, hlast, hstatus, hperm⟩ := reviewReasons_nil hpassed
  obtain ⟨hfirst, hchecks⟩ := foldl_checkReasons_nil hchecks
  simp only [List.append_eq_nil_iff, ite_eq_right_iff, ite_eq_left_iff, reduceCtorEq, imp_false,
    decide_eq_true_eq, ne_eq, not_not, List.all_eq_true] at hfirst
  obtain ⟨⟨hcontext, hlatest⟩, hartifacts⟩ := hfirst
  rw [show (forEvidence.ofCandidate c.id).map _ = effective _ _ from rfl] at hchecks hlast hperm
  refine ⟨hmem, hcontext, hlatest, hartifacts, ?_, ?_⟩
  · intro check hcheck
    obtain ⟨last, hlast, hstatus⟩ := hchecks check hcheck
    rw [lastCheckOf_effective] at hlast
    obtain ⟨item, hitem, rfl⟩ := Option.map_eq_some_iff.mp hlast
    exact ⟨item, hitem, effectiveStatus_passed hstatus⟩
  · rw [lastReview?_effective] at hlast
    obtain ⟨⟨item, spec⟩, hitem, heq⟩ := Option.map_eq_some_iff.mp hlast
    simp only [Prod.mk.injEq] at heq
    obtain ⟨rfl, rfl⟩ := heq
    obtain ⟨hpassed, havailable⟩ := effectiveStatus_passed hstatus
    refine ⟨item, spec, hitem, hpassed, havailable, ?_⟩
    simpa [lastCheckOf_effective, Function.comp_def] using hperm

theorem lastReviewOf_mem (h : lastReviewOf evidence = some (item, spec)) :
    item ∈ evidence ∧ item.observation = .review spec := by
  have hmem := List.mem_of_getLast? h
  obtain ⟨item', hitem', hspec⟩ := List.mem_filterMap.mp hmem
  obtain ⟨spec', hreview, heq⟩ := Option.map_eq_some_iff.mp hspec
  cases heq
  refine ⟨hitem', ?_⟩
  cases hobservation : item.observation with
  | check => simp [Evidence.review?, hobservation] at hreview
  | review => simpa [Evidence.review?, hobservation] using hreview

theorem Sound.same (hs : Sound s) (hc : c ∈ s.store.candidates)
    (hc' : c' ∈ s.store.candidates) (h : c.id = c'.id) : c = c' :=
  List.inj_on_of_nodup_map hs.ids hc hc' h

theorem Sound.complete (hs : Sound s) (ht : Sound t) (hgrows : s.store.Grows t.store)
    (h : Passes lib s.store t.store forLatest artifacts logs current c) :
    Complete lib logs c (t.store.ofCandidate c.id) := by
  have hc := hgrows.candidates.subset h.mem
  refine ⟨?_, ?_⟩
  · intro check hcheck
    obtain ⟨item, hlast, hpassed, havailable⟩ := h.checks check hcheck
    obtain ⟨hitem, spec, hobservation, hid⟩ := lastCheck?_mem hlast
    obtain ⟨hitem, hcandidate⟩ := mem_ofCandidate.mp hitem
    obtain ⟨c', hc', hid', hprovenCheck, -⟩ := ht.proven item hitem hpassed
    cases ht.same hc' hc (hid'.trans hcandidate)
    have hproven := hprovenCheck spec hobservation
    obtain ⟨found, hfind, hrevision, henvironment⟩ := hproven.check
    have hfound : found = check := by
      refine List.inj_on_of_nodup_map (hs.check_ids _ h.mem) (List.mem_of_find?_eq_some hfind) hcheck ?_
      have hfindid := List.find?_some hfind
      simp only [decide_eq_true_eq] at hfindid
      exact hfindid.trans hid
    subst hfound
    exact ⟨item, spec, hlast, hobservation, hid, hproven, hrevision, henvironment, havailable⟩
  · obtain ⟨item, spec, hlast, hpassed, havailable, hperm⟩ := h.review
    obtain ⟨hitem, hobservation⟩ := lastReviewOf_mem hlast
    obtain ⟨hitem, hcandidate⟩ := mem_ofCandidate.mp hitem
    obtain ⟨c', hc', hid', -, hprovenReview⟩ := ht.proven item hitem hpassed
    cases ht.same hc' hc (hid'.trans hcandidate)
    exact ⟨item, spec, hlast, hobservation, hprovenReview spec hobservation, havailable, hperm⟩

-- A check that is recorded again

theorem lastCheck?_after (hitem : item.check?.any (·.check_id = check_id))
    (h : lastCheck? (before ++ item :: after) check_id = some last) : last ∈ item :: after := by
  simp only [lastCheck?, List.filter_append, List.filter_cons, hitem, if_true, List.getLast?_append_cons] at h
  have hmem := List.mem_of_getLast? h
  rcases List.mem_cons.mp hmem with rfl | hmem
  · exact List.mem_cons_self
  · exact List.mem_cons_of_mem _ (List.mem_of_mem_filter hmem)

theorem Sound.reviewed_after (ht : Sound t)
    (hevidence : t.store.evidence = before ++ item :: after) (hof : item.input.candidate_id = c.id)
    (hcheck : check ∈ c.request.policy.checks) (hitem : item.check?.any (·.check_id = check.id))
    (hcomplete : Complete lib logs c (t.store.ofCandidate c.id))
    (hproven : ∀ r spec, lastReviewOf (t.store.ofCandidate c.id) = some (r, spec) → r.status = .passed) :
    ∃ r ∈ after, r.input.candidate_id = c.id ∧ ∃ spec, r.observation = .review spec := by
  obtain ⟨last, -, hlast, -⟩ := hcomplete.checks check hcheck
  obtain ⟨r, spec, hr, hreview, -, -, hperm⟩ := hcomplete.review
  obtain ⟨hmem, -⟩ := lastReviewOf_mem hr
  obtain ⟨hmem, hcandidate⟩ := mem_ofCandidate.mp hmem
  -- the last evidence of the check is the item, or comes after it
  have hafter : last ∈ item :: after := by
    have hsplit : t.store.ofCandidate c.id = before.filter (·.input.candidate_id = c.id) ++
          item :: after.filter (·.input.candidate_id = c.id) := by
      simp [Store.ofCandidate, hevidence, hof]
    rw [hsplit] at hlast
    rcases List.mem_cons.mp (lastCheck?_after hitem hlast) with rfl | hmem
    · exact List.mem_cons_self
    · exact List.mem_cons_of_mem _ (List.mem_of_mem_filter hmem)
  have hnamed : last.id ∈ spec.check_evidence_ids := by
    refine hperm.mem_iff.mpr (List.mem_filterMap.mpr ⟨check, hcheck, ?_⟩)
    simp [hlast]
  rw [hevidence] at hmem
  rcases List.mem_append.mp hmem with hmem | hmem
  · -- a review before the item names evidence before it
    obtain ⟨first, rest, rfl⟩ := List.append_of_mem hmem
    have hearlier := ht.earlier first r (rest ++ item :: after) (by simp [hevidence])
    have hid := hearlier (hproven r spec hr) spec hreview last.id hnamed
    obtain ⟨named, hnamed, heq⟩ := List.mem_map.mp hid
    have hnodup := ht.evidence_ids
    rw [hevidence, List.map_append, List.nodup_append] at hnodup
    refine absurd heq (hnodup.2.2 _ (List.mem_map_of_mem ?_) _ (List.mem_map_of_mem hafter))
    exact List.mem_append_left _ hnamed
  · rcases List.mem_cons.mp hmem with rfl | hmem
    · simp [Evidence.check?, hreview] at hitem
    · exact ⟨r, hmem, hcandidate, spec, hreview⟩

-- The gate

/-- A gate reads the candidate, the evidence and the newest revision at three times. Where it
passes, the candidate is the newest of its series and current, its artifacts are there, and its
evidence is complete. Where a check of its policy was recorded before, a review was after it. -/
theorem gate_complete {s t u : State} (hs : (system lib).Reach System.free s)
    (hst : (system lib).Path System.free s t) (htu : (system lib).Path System.free t u)
    (hgate : gate lib s.store t.store u.store artifacts logs candidate_id current = .ok result)
    (hpassed : result.local_gate_passed = true) :
    ∃ c ∈ u.store.candidates, c.id = candidate_id ∧ c.context = current ∧
      (∀ r ∈ u.store.candidates, r.series_id = c.series_id → r.revision ≤ c.revision) ∧
      (∀ entry ∈ c.manifest, available lib artifacts entry.artifact = true) ∧
      Complete lib logs c (t.store.ofCandidate c.id) ∧
      ∀ v a item, (step lib v a).store.evidence = v.store.evidence ++ [item] →
        (system lib).Path System.free (step lib v a) t → item.input.candidate_id = c.id →
        (∃ check ∈ c.request.policy.checks, item.check?.any (·.check_id = check.id) = true) →
        ∃ after, t.store.evidence = v.store.evidence ++ item :: after ∧
          ∃ r ∈ after, r.input.candidate_id = c.id ∧ ∃ spec, r.observation = .review spec := by
  have hsound := sound_reach hs
  have htsound := sound_reach (hs.path hst)
  obtain ⟨c, hid, hpasses⟩ := gate_read hgate hpassed
  have hcomplete := hsound.complete htsound (path_grows hst) hpasses
  have hmem := ((path_grows hst).trans (path_grows htu)).candidates.subset hpasses.mem
  refine ⟨c, hmem, hid, hpasses.context, ?_, hpasses.artifacts, hcomplete, ?_⟩
  · intro r hr hseries
    obtain ⟨-, hmax⟩ := List.max?_eq_some_iff.mp hpasses.latest
    exact hmax _ (List.mem_map_of_mem (List.mem_filter.mpr ⟨hr, by simpa using hseries⟩))
  · rintro v a item hrecorded hpath hof ⟨check, hcheck, hitem⟩
    obtain ⟨after, hevidence⟩ := (path_grows hpath).evidence
    rw [hrecorded, List.append_assoc, List.singleton_append] at hevidence
    refine ⟨after, hevidence.symm, htsound.reviewed_after hevidence.symm hof hcheck hitem hcomplete ?_⟩
    intro r spec hr
    obtain ⟨item', spec', hlast, hpassed', -⟩ := hpasses.review
    rw [hr] at hlast
    cases hlast
    exact hpassed'

namespace Sample

/-- Digests that are the bytes themselves, and a directory that has what they name. -/
def library : Library where
  sha256 bytes := String.ofList (bytes.map fun b => Char.ofNat b.toNat)
  sha1 bytes := String.ofList (bytes.map fun b => Char.ofNat b.toNat)
  digest _ := "digest"
  isprintable _ := true
  lower text := text
  casefold text := text

def directory : Directory := fun sha => .bytes (sha.toList.map fun c => c.toNat.toUInt8) true

def host : Host := ⟨false, directory, fun _ => some "blob", fun _ => some "tree"⟩

def spec : Freeze where
  series_id := "series"
  baseline_id := "digest"
  input_sha256 := "input"
  allowed_paths := ["README"]
  task_class := .t3
  writer := ⟨"attempt", 1, true, "stopped"⟩
  authors := [⟨"attempt", 1, "writer", 1, some "a", "context", "ref"⟩]
  policy := ⟨"policy", 1, [⟨"tests", 1, ["make"], "environment"⟩],
    ⟨1, "environment", [⟨"reviewer", 1, some "b", "qualified"⟩]⟩⟩

def check : CheckResult where
  evidence_key := "check"
  candidate_id := "candidate"
  policy_sha256 := "digest"
  input_sha256 := "input"
  environment_sha256 := "environment"
  observation_ref := "observed"
  provenance := .trustedObservation
  check_id := "tests"
  check_revision := 1
  executor_ref := "executor"
  exit_code := some 0
  outcome := .completed

def review : ReviewResult where
  evidence_key := "review"
  candidate_id := "candidate"
  policy_sha256 := "digest"
  input_sha256 := "input"
  environment_sha256 := "environment"
  observation_ref := "observed"
  provenance := .trustedObservation
  review_revision := 1
  check_evidence_ids := ["evidence"]
  actor := ⟨"other", 1, "reviewer", 1, some "b", "another", "ref"⟩
  author_reasoning_included := false
  verdict := .passed
  findings := []

def registered : String → Option Registered :=
  fun sha => some ⟨sha, "tree", [⟨"100644", "blob", "blob", "README", [1]⟩]⟩

def baseSha : String := String.ofList (List.replicate 40 'a')

def reviewed : State := (system library).run empty [
  .register_baseline directory registered "repository" baseSha,
  .freeze host spec (.ok [⟨"README", .file [2] false⟩]) "candidate" "now",
  .record_check directory check (some [3]) "evidence" "now",
  .save_evidence 0,
  .record_review directory review (some [4]) "verdict" "now",
  .save_evidence 0]

def current : CurrentContext := ⟨"repository", baseSha, "input", "digest"⟩

end Sample

open Sample in
theorem gate_complete_sample : ∃ c ∈ reviewed.store.candidates, c.id = "candidate" ∧
    Complete library directory c (reviewed.store.ofCandidate c.id) := by
  have hgate : (gate library reviewed.store reviewed.store reviewed.store directory directory
      "candidate" current).toOption.map (·.local_gate_passed) = some true := by decide +kernel
  obtain ⟨result, hresult, hpassed⟩ := ok_of_map hgate
  obtain ⟨c, hc, hid, -, -, -, hcomplete, -⟩ := gate_complete ⟨_, rfl, .of_free_run⟩ .refl .refl hresult hpassed
  exact ⟨c, hc, hid, hcomplete⟩

end Karajan.Candidates
