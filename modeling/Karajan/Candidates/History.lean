import Karajan.Candidates.Recovery
import Karajan.Lib.Runs

/-!
# Evidence and the gate

A check or a review is recorded in two steps: its status is computed from what
the store holds then, and the record is inserted afterwards. The gate reads the
candidate, its evidence and its series one after the other, and passes where no
reason is left against it.
-/

namespace Karajan.Candidates

open List Check
open GitTree (Bytes)

def sortedTexts (texts : List String) : List String := texts.insertionSort (· ≤ ·)

theorem sortedTexts_eq : sortedTexts a = sortedTexts b ↔ a.Perm b := by
  constructor
  · intro h
    have hb : (sortedTexts b).Perm b := perm_insertionSort _ b
    exact (perm_insertionSort _ a).symm.trans (h ▸ hb)
  · intro h
    exact ((perm_insertionSort _ a).trans
      (h.trans (perm_insertionSort _ b).symm)).eq_of_pairwise'
        (pairwise_insertionSort _ _) (pairwise_insertionSort _ _)

-- Recording

def Store.ofCandidate (store : Store) (candidate_id : String) : List Evidence :=
  store.evidence.filter (·.input.candidate_id = candidate_id)

section
variable (lib : Library) (objects : Directory)

def optionalLog : Option Bytes → Except CandidateError (Option Artifact)
  | none => .ok none
  | some log => some <$> artifact lib objects log

def logged (log : Option Bytes) : Bool := log.any (· ≠ [])

def CheckResult.observed (spec : CheckResult) (log : Option Bytes) : Status :=
  if spec.outcome ≠ .completed then .inconclusive
  else match spec.exit_code with
    | none => .inconclusive
    | some exit_code =>
      if exit_code ≠ 0 then .failed else if !logged log then .unavailable else .passed

/-- Whether a check is of the candidate as it is, and as its policy has the check. -/
def CheckResult.bound (spec : CheckResult) (candidate : Candidate) : Bool :=
  spec.policy_sha256 = candidate.policy_sha256 && spec.input_sha256 = candidate.input_sha256 &&
    (candidate.request.policy.checks.find? (·.id = spec.check_id)).any fun expected =>
      expected.revision = spec.check_revision &&
        expected.environment_sha256 = spec.environment_sha256

def record_check (store : Store) (spec : CheckResult)
    (log : Option Bytes) (id now : String) : Except CandidateError Evidence := do
  let candidate ← store.get spec.candidate_id
  let reference ← optionalLog lib objects log
  return {
    id := id
    observation := .check spec
    status := if spec.bound candidate then spec.observed log else .invalidated
    reasons := if spec.bound candidate then [] else [.bindingMismatch]
    log := reference
    recorded_at := now }

def lastCheck? (evidence : List Evidence) (check_id : String) : Option Evidence :=
  (evidence.filter fun item => item.check?.any (·.check_id = check_id)).getLast?

def availableLog (item : Evidence) : Bool := item.log.any (available lib objects)

/-- Whether the last of each check of the policy passed, and the review names these. -/
def ReviewResult.checksNamed (checks : List Evidence)
    (required : List CheckPolicy) (spec : ReviewResult) : Bool :=
  required.all (fun check => (lastCheck? checks check.id).any fun item =>
    item.status = .passed && availableLog lib objects item) &&
  sortedTexts (required.filterMap fun check => (lastCheck? checks check.id).map (·.id)) =
    sortedTexts spec.check_evidence_ids

def ReviewResult.bound (spec : ReviewResult) (candidate : Candidate) : Bool :=
  spec.policy_sha256 = candidate.policy_sha256 && spec.input_sha256 = candidate.input_sha256 &&
    spec.environment_sha256 = candidate.request.policy.review.environment_sha256 &&
    spec.review_revision = candidate.request.policy.review.revision

def ReviewResult.qualifier (spec : ReviewResult) (candidate : Candidate) : Option Reviewer :=
  candidate.request.policy.review.approved_reviewers.find? fun item =>
    item.profile_id = spec.actor.profile_id && item.profile_revision = spec.actor.profile_revision

def ReviewResult.independent (spec : ReviewResult) (candidate : Candidate) : Bool :=
  (spec.qualifier candidate).any (·.model_family = spec.actor.model_family) &&
    !spec.author_reasoning_included &&
    candidate.request.authors.all fun author =>
      author.attempt_id ≠ spec.actor.attempt_id && author.context_id ≠ spec.actor.context_id

def named (family : Option String) : Bool := family.any (· ≠ "")

def ReviewResult.familyIndependent (spec : ReviewResult) (candidate : Candidate) : Bool :=
  candidate.request.task_class ≠ .t3 ||
    (named spec.actor.model_family && candidate.request.authors.all fun author =>
      named author.model_family && author.model_family ≠ spec.actor.model_family)

def Verdict.status : Verdict → Status
  | .passed => .passed
  | .failed => .failed
  | .inconclusive => .inconclusive

def ReviewResult.observed (spec : ReviewResult) (log : Option Bytes) : Status :=
  if spec.findings.any (·.blocking) then .failed
  else if !logged log && spec.verdict = .passed then .unavailable
  else spec.verdict.status

def ReviewResult.reasons (store : Store) (candidate : Candidate) (spec : ReviewResult) : List EvidenceReason :=
  let checks := (store.ofCandidate spec.candidate_id).filter (·.check?.isSome)
  (if spec.bound candidate && spec.checksNamed lib objects checks candidate.request.policy.checks
    then [] else [.bindingMismatch]) ++
  (if spec.independent candidate then [] else [.notIndependentOrQualified]) ++
  (if spec.familyIndependent candidate then [] else [.familyIndependenceUnproven])

def record_review (store : Store) (spec : ReviewResult)
    (log : Option Bytes) (id now : String) : Except CandidateError Evidence := do
  let candidate ← store.get spec.candidate_id
  let reasons := spec.reasons lib objects store candidate
  let reference ← optionalLog lib objects log
  return {
    id := id
    observation := .review spec
    status := if reasons = [] then spec.observed log else .invalidated
    reasons := reasons
    log := reference
    recorded_at := now }

end

/-- A record is inserted, unless its key has one that says the same. -/
def save_evidence (store : Store) (record : Evidence) : Except CandidateError (Store × Evidence) :=
  match store.evidence.find? (·.input.evidence_key = record.input.evidence_key) with
  | some previous => do
    ensure (previous.observation = record.observation && previous.log = record.log)
      .evidenceKeyConflict
    return (store, previous)
  | none => do
    ensure (store.evidence.all (·.id ≠ record.id)) .candidateStorageUnavailable
    return ({ store with evidence := store.evidence ++ [record] }, record)

-- The gate

inductive GateReason
  | currentContextChanged
  | candidateSuperseded
  | artifactUnavailable
  | checkEvidenceMissing (check_id : String)
  | checkNotPassed (check_id : String)
  | reviewCheckSetChanged
  | reviewEvidenceMissing
  | reviewNotPassed
deriving DecidableEq

structure EffectiveEvidence extends Evidence where
  effective_status : Status

structure GateResult where
  candidate_id : String
  reasons : List GateReason
  evidence : List EffectiveEvidence

def GateResult.local_gate_passed (result : GateResult) : Bool := result.reasons.isEmpty

def effectiveStatus (lib : Library) (logs : Directory) (outdated : Bool) (item : Evidence) : Status :=
  if !availableLog lib logs item then .unavailable
  else if outdated then .invalidated else item.status

section
variable (evidence : List EffectiveEvidence)

def lastCheckOf (check_id : String) : Option EffectiveEvidence :=
  (evidence.filter fun item => item.check?.any (·.check_id = check_id)).getLast?

def noteUnavailable (reasons : List GateReason) (status : Status) : List GateReason :=
  if status = .unavailable ∧ .artifactUnavailable ∉ reasons then reasons ++ [.artifactUnavailable]
  else reasons

def checkReasons (reasons : List GateReason) (check : CheckPolicy) : List GateReason :=
  match lastCheckOf evidence check.id with
  | none => reasons ++ [.checkEvidenceMissing check.id]
  | some last =>
    if last.effective_status ≠ .passed then
      noteUnavailable (reasons ++ [.checkNotPassed check.id]) last.effective_status
    else reasons

def lastReview? : Option (EffectiveEvidence × ReviewResult) :=
  (evidence.filterMap fun item => item.review?.map (item, ·)).getLast?

def reviewReasons (check_ids : List String) (reasons : List GateReason) : List GateReason :=
  match lastReview? evidence with
  | none => reasons ++ [.reviewEvidenceMissing]
  | some (last, review) =>
    if sortedTexts review.check_evidence_ids ≠ sortedTexts check_ids then
      reasons ++ [.reviewCheckSetChanged, .reviewNotPassed]
    else if last.effective_status ≠ .passed then
      noteUnavailable (reasons ++ [.reviewNotPassed]) last.effective_status
    else reasons

/-- The last review, where its checks are no longer the last ones, is not valid. -/
def withLastReview (check_ids : List String) : List EffectiveEvidence :=
  match lastReview? evidence with
  | none => evidence
  | some (last, review) =>
    if sortedTexts review.check_evidence_ids ≠ sortedTexts check_ids then
      evidence.map fun item =>
        if item.id = last.id then { item with effective_status := .invalidated } else item
    else evidence

end

/-- The gate reads the candidate, then its evidence, then the newest revision of its series,
each of them from the store as it is then; artifacts are read after that. -/
def gate (lib : Library) (store forEvidence forLatest : Store) (artifacts logs : Directory)
    (candidate_id : String) (current : CurrentContext) : Except CandidateError GateResult := do
  let candidate ← store.get candidate_id
  let rows := forEvidence.ofCandidate candidate_id
  let context_changed : Bool := candidate.context ≠ current
  let superseded : Bool := forLatest.latest candidate.series_id ≠ some candidate.revision
  let evidence := rows.map fun item =>
    { item with effective_status := effectiveStatus lib logs (context_changed || superseded) item }
  let checks := candidate.request.policy.checks
  let check_ids := checks.filterMap fun check => (lastCheckOf evidence check.id).map (·.id)
  let first := (if context_changed then [.currentContextChanged] else []) ++
    (if superseded then [.candidateSuperseded] else []) ++
    (if candidate.manifest.all (available lib artifacts ·.artifact) then []
      else [.artifactUnavailable])
  let reasons := reviewReasons evidence check_ids (checks.foldl (checkReasons evidence) first)
  return ⟨candidate_id, reasons, withLastReview evidence check_ids⟩

-- Histories of the store

/-- The store, and the evidence that was prepared and is not saved yet. -/
structure State where
  store : Store
  prepared : List Evidence

inductive Action
  | register_baseline (objects : Directory) (repository : String → Option Registered)
      (repository_identity base_sha : String)
  | freeze (host : Host) (spec : Freeze) (workspace : Except CandidateError (List WorkspaceEntry))
      (id now : String)
  | freeze_projection (host : Host) (scratch : Except CandidateError Unit)
      (projection : List ProjectionRow) (contents : Dict String Bytes) (spec : Freeze)
      (id now : String)
  | rebind_reviewers (objects : Directory) (binding : ReviewerBinding) (command_key id now : String)
  | record_check (objects : Directory) (spec : CheckResult) (log : Option Bytes) (id now : String)
  | record_review (objects : Directory) (spec : ReviewResult) (log : Option Bytes) (id now : String)
  | save_evidence (index : Nat)

def State.commit (s : State) : Except CandidateError (Store × α) → State
  | .ok (store, _) => { s with store := store }
  | .error _ => s

def State.prepare (s : State) : Except CandidateError Evidence → State
  | .ok record => { s with prepared := s.prepared ++ [record] }
  | .error _ => s

def State.save (s : State) (index : Nat) : State :=
  match s.prepared[index]? with
  | none => s
  | some record =>
    { s with prepared := s.prepared.eraseIdx index }.commit (save_evidence s.store record)

open Candidates (register_baseline freeze freeze_projection rebind_reviewers record_check record_review)

def step (lib : Library) (s : State) : Action → State
  | .register_baseline objects repository repository_identity base_sha =>
    s.commit (register_baseline lib objects repository s.store repository_identity base_sha)
  | .freeze host spec workspace id now =>
    s.commit (freeze lib host s.store spec workspace id now)
  | .freeze_projection host scratch projection contents spec id now =>
    s.commit (freeze_projection lib host scratch s.store projection contents spec id now)
  | .rebind_reviewers objects binding command_key id now =>
    s.commit (rebind_reviewers lib objects s.store binding command_key id now)
  | .record_check objects spec log id now =>
    s.prepare (record_check lib objects s.store spec log id now)
  | .record_review objects spec log id now =>
    s.prepare (record_review lib objects s.store spec log id now)
  | .save_evidence index => s.save index

def empty : State := ⟨⟨[], [], []⟩, []⟩

def system (lib : Library) : System State Action := ⟨(· = empty), step lib⟩

-- What a step may do

/-- No candidate has the id of a record, or its place in its series. -/
def Store.Fresh (store : Store) (record : Candidate) : Prop :=
  ∀ r ∈ store.candidates, r.id ≠ record.id ∧
    (r.series_id = record.series_id → r.revision ≠ record.revision)

def Capture.next (lib : Library) (store : Store) (found : Capture) (id now : String) : Candidate :=
  found.record lib (((store.newest found.request.series_id).map (·.revision)).getD 0 + 1) id now

inductive Committed (lib : Library) (ok : Host → Prop) (store : Store) : Candidate → Prop
  | frozen {id : String} (hok : ok host) (hcapture : capture lib host store spec workspace = .ok found) :
      Committed lib ok store (found.next lib store id now)
  | rebound {id : String} (hcommand : reviewCommand binding command_key = .ok command)
      (hfirst : lookupRebind lib store command = .ok none)
      (hsource : sourceCandidate lib store command = .ok source)
      (hcheck : checkSource lib objects store source = .ok ()) :
      Committed lib ok store (derived lib source command id now)

inductive Prepared (lib : Library) (store : Store) (record : Evidence) : Prop
  | check {id : String} (h : record_check lib objects store spec log id now = .ok record)
  | review {id : String} (h : record_review lib objects store spec log id now = .ok record)

inductive Moves (lib : Library) (ok : Host → Prop) (s : State) : State → Prop
  | same : Moves lib ok s s
  | registered (b : Baseline) (hnew : s.store.baseline? b.id = none)
      (hid : b.id = lib.digest (.baseline (b.identity lib))) :
      Moves lib ok s { s with store := { s.store with baselines := s.store.baselines ++ [b] } }
  | candidate (c : Candidate) (hfresh : s.store.Fresh c) (hcommitted : Committed lib ok s.store c) :
      Moves lib ok s { s with store := { s.store with candidates := s.store.candidates ++ [c] } }
  | prepared (record : Evidence) (h : Prepared lib s.store record) :
      Moves lib ok s { s with prepared := s.prepared ++ [record] }
  | forgotten (index : Nat) : Moves lib ok s { s with prepared := s.prepared.eraseIdx index }
  | saved (index : Nat) (record : Evidence) (hrecord : s.prepared[index]? = some record)
      (hkey : ∀ e ∈ s.store.evidence, e.input.evidence_key ≠ record.input.evidence_key)
      (hid : ∀ e ∈ s.store.evidence, e.id ≠ record.id) :
      Moves lib ok s
        { store := { s.store with evidence := s.store.evidence ++ [record] }
          prepared := s.prepared.eraseIdx index }

variable {store store' : Store}

theorem insertCandidate_ok : store.insertCandidate c = .ok store' ↔
      store.Fresh c ∧ store' = { store with candidates := store.candidates ++ [c] } := by
  simp only [Store.insertCandidate, bind_ok, ensure_ok, pure_ok, all_eq_true, Store.Fresh,
    Bool.and_eq_true, Bool.or_eq_true, decide_eq_true_eq]
  constructor
  · rintro ⟨-, hall, rfl⟩
    exact ⟨fun r hr => ⟨(hall r hr).1, fun hs => (hall r hr).2.resolve_left (absurd hs)⟩, rfl⟩
  · rintro ⟨hfresh, rfl⟩
    refine ⟨(), fun r hr => ⟨(hfresh r hr).1, ?_⟩, rfl⟩
    by_cases hs : r.series_id = c.series_id
    · exact .inr ((hfresh r hr).2 hs)
    · exact .inl hs

variable {id : String}

theorem commit_ok (h : commit lib store found id now = .ok (store', c)) :
    (store' = store ∧ store.newest found.request.series_id = some c ∧
      c.content_sha256 = lib.digest (.content found.identity) ∧ c.request = found.request) ∨
    (c = found.next lib store id now ∧ store.Fresh c ∧
      store' = { store with candidates := store.candidates ++ [c] }) := by
  simp only [commit] at h
  split at h
  case h_1 previous hprevious =>
    obtain ⟨hnewest, hsame⟩ := Option.filter_eq_some_iff.mp hprevious
    simp only [pair_ok] at h
    obtain ⟨rfl, rfl⟩ := h
    simp only [Bool.and_eq_true, decide_eq_true_eq] at hsame
    exact .inl ⟨rfl, hnewest, hsame⟩
  · simp only [bind_ok, pair_ok] at h
    obtain ⟨next, hinsert, rfl, rfl⟩ := h
    obtain ⟨hfresh, rfl⟩ := insertCandidate_ok.mp hinsert
    exact .inr ⟨rfl, hfresh, rfl⟩

theorem freeze_ok (h : freeze lib host store spec workspace id now = .ok (store', c)) :
    ∃ found, capture lib host store spec workspace = .ok found ∧
      commit lib store found id now = .ok (store', c) := by
  simpa [freeze, bind_ok] using h

theorem freeze_projection_ok (h : freeze_projection lib host scratch store
    projection contents spec id now = .ok (store', c)) : spec.allowed_paths.Nodup ∧ spec.writerStopped = true ∧
    ∃ baseline, get_baseline lib store spec.baseline_id = .ok baseline ∧
    ∃ prepared, prepare_projection lib projection contents baseline spec.allowed_paths = .ok prepared ∧
    ∃ files, materialize lib host.objects baseline.manifest = .ok files ∧
      freeze lib host store spec (.ok (scratchEntries (files.map (written prepared)))) id now =
        .ok (store', c) := by
  simp only [freeze_projection, bind_ok, ensure_ok, decide_eq_true_eq] at h
  obtain ⟨-, hnodup, -, hwriter, baseline, hbaseline, prepared, hprepared, -, -, files, hfiles, h⟩ := h
  exact ⟨hnodup, hwriter, baseline, hbaseline, prepared, hprepared, files, hfiles, h⟩

theorem rebind_ok (h : rebind_reviewers lib objects store binding command_key id now = .ok (store', c)) :
    ∃ command, reviewCommand binding command_key = .ok command ∧
      ((store' = store ∧ lookupRebind lib store command = .ok (some c)) ∨
       (lookupRebind lib store command = .ok none ∧
        ∃ source, sourceCandidate lib store command = .ok source ∧
          checkSource lib objects store source = .ok () ∧ c = derived lib source command id now ∧
          store.Fresh c ∧ store' = { store with candidates := store.candidates ++ [c] })) := by
  simp only [rebind_reviewers, bind_ok] at h
  obtain ⟨command, hcommand, prior, hprior, h⟩ := h
  refine ⟨command, hcommand, ?_⟩
  cases prior with
  | some prior =>
    simp only [pair_ok] at h
    obtain ⟨rfl, rfl⟩ := h
    exact .inl ⟨rfl, hprior⟩
  | none =>
    simp only [rebindNew, bind_ok, pair_ok] at h
    obtain ⟨source, hsource, u, hcheck, next, hinsert, rfl, rfl⟩ := h
    obtain ⟨hfresh, rfl⟩ := insertCandidate_ok.mp hinsert
    exact .inr ⟨hprior, source, hsource, hcheck, rfl, hfresh, rfl⟩

theorem register_baseline_ok (h : register_baseline lib objects repository store
    repository_identity base_sha = .ok (store', b)) :
    store' = store ∨ (store.baseline? b.id = none ∧ b.id = lib.digest (.baseline (b.identity lib)) ∧
      store' = { store with baselines := store.baselines ++ [b] }) := by
  simp only [register_baseline, bind_ok] at h
  obtain ⟨-, -, found, -, manifest, -, h⟩ := h
  split at h
  · simp only [pair_ok] at h
    exact .inl h.1.symm
  case isFalse hnew =>
    simp only [pair_ok] at h
    obtain ⟨rfl, rfl⟩ := h
    exact .inr ⟨by simpa using hnew, rfl, rfl⟩

theorem save_evidence_ok (h : save_evidence store record = .ok (store', item)) :
    store' = store ∨ ((∀ e ∈ store.evidence, e.input.evidence_key ≠ record.input.evidence_key) ∧
      (∀ e ∈ store.evidence, e.id ≠ record.id) ∧
      store' = { store with evidence := store.evidence ++ [record] }) := by
  simp only [save_evidence] at h
  split at h
  · simp only [bind_ok, pair_ok] at h
    obtain ⟨-, -, rfl, -⟩ := h
    exact .inl rfl
  case h_2 hnone =>
    simp only [bind_ok, ensure_ok, pair_ok, all_eq_true, decide_eq_true_eq] at h
    obtain ⟨-, hid, rfl, -⟩ := h
    exact .inr ⟨by simpa using hnone, hid, rfl⟩

def Action.hosts (ok : Host → Prop) : Action → Prop
  | .freeze host .. | .freeze_projection host .. => ok host
  | .register_baseline .. | .rebind_reviewers .. | .record_check .. | .record_review ..
  | .save_evidence _ => True

theorem Moves.freeze (hok : ok host) (store' : Store)
    (h : freeze lib host s.store spec workspace id now = .ok (store', c)) :
    Moves lib ok s { s with store := store' } := by
  obtain ⟨found, hcapture, hcommit⟩ := freeze_ok h
  rcases commit_ok hcommit with ⟨rfl, -⟩ | ⟨rfl, hfresh, rfl⟩
  · exact .same
  · exact .candidate _ hfresh (.frozen hok hcapture)

theorem step_moves (s : State) (a : Action) (h : a.hosts ok) : Moves lib ok s (step lib s a) := by
  cases a with
  | register_baseline objects repository repository_identity base_sha =>
    simp only [step]
    cases hr : register_baseline lib objects repository s.store repository_identity base_sha with
    | error => exact .same
    | ok r =>
      obtain ⟨store', b⟩ := r
      rcases register_baseline_ok hr with rfl | ⟨hnew, hid, rfl⟩
      · exact .same
      · exact .registered b hnew hid
  | freeze host spec workspace id now =>
    simp only [step]
    cases hr : freeze lib host s.store spec workspace id now with
    | error => exact .same
    | ok r => exact .freeze h r.1 hr
  | freeze_projection host scratch projection contents spec id now =>
    simp only [step]
    cases hr : freeze_projection lib host scratch s.store projection contents spec id now with
    | error => exact .same
    | ok r =>
      obtain ⟨-, -, baseline, -, prepared, -, files, -, hfreeze⟩ := freeze_projection_ok hr
      exact .freeze h r.1 hfreeze
  | rebind_reviewers objects binding command_key id now =>
    simp only [step]
    cases hr : rebind_reviewers lib objects s.store binding command_key id now with
    | error => exact .same
    | ok r =>
      obtain ⟨command, hcommand, ⟨hsame, -⟩ | ⟨hfirst, source, hsource, hcheck, hc, hfresh, hstore⟩⟩ :=
        rebind_ok hr
      · simp only [State.commit, hsame]
        exact .same
      · simp only [State.commit, hstore]
        refine .candidate _ hfresh ?_
        rw [hc]
        exact .rebound hcommand hfirst hsource hcheck
  | record_check objects spec log id now =>
    simp only [step]
    cases hr : record_check lib objects s.store spec log id now with
    | error => exact .same
    | ok record => exact .prepared record (.check hr)
  | record_review objects spec log id now =>
    simp only [step]
    cases hr : record_review lib objects s.store spec log id now with
    | error => exact .same
    | ok record => exact .prepared record (.review hr)
  | save_evidence index =>
    cases hrecord : s.prepared[index]? with
    | none =>
      simp only [step, State.save, hrecord]
      exact .same
    | some record =>
      simp only [step, State.save, hrecord]
      cases hr : Candidates.save_evidence s.store record with
      | error => exact .forgotten index
      | ok r =>
        obtain ⟨store', item⟩ := r
        rcases save_evidence_ok hr with rfl | ⟨hkey, hid, rfl⟩
        · exact .forgotten index
        · exact .saved index record hrecord hkey hid

-- The store only grows

structure Store.Grows (s t : Store) : Prop where
  baselines : s.baselines <+: t.baselines
  candidates : s.candidates <+: t.candidates
  evidence : s.evidence <+: t.evidence

theorem Store.Grows.refl (s : Store) : s.Grows s := ⟨prefix_refl _, prefix_refl _, prefix_refl _⟩

theorem Store.Grows.trans {s t u : Store} (h : s.Grows t) (h' : t.Grows u) : s.Grows u :=
  ⟨h.baselines.trans h'.baselines, h.candidates.trans h'.candidates, h.evidence.trans h'.evidence⟩

theorem Moves.grows (h : Moves lib ok s t) : s.store.Grows t.store := by
  cases h with
  | same | prepared | forgotten => exact .refl _
  | registered => exact ⟨prefix_append _ _, prefix_refl _, prefix_refl _⟩
  | candidate => exact ⟨prefix_refl _, prefix_append _ _, prefix_refl _⟩
  | saved => exact ⟨prefix_refl _, prefix_refl _, prefix_append _ _⟩

def hosted (ok : Host → Prop) : State → Action → Prop := fun _ a => a.hosts ok

theorem hosts_any (a : Action) : a.hosts fun _ => True := by
  cases a <;> trivial

theorem path_grows {ok : State → Action → Prop} (h : (system lib).Path ok s t) : s.store.Grows t.store :=
  h.relates (R := fun s t => s.store.Grows t.store) (fun s => .refl s.store) (fun _ _ _ => .trans)
    fun s a _ => (step_moves s a (hosts_any a)).grows

end Karajan.Candidates
