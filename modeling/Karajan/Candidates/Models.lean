import Karajan.Lib.GitTree

/-!
# Candidates

A candidate is one frozen revision of a series: the files a writer left behind,
over a registered baseline, with the policy under which they are checked and
reviewed. Evidence is what was observed of one candidate.
-/

namespace Karajan.Candidates

open GitTree (Bytes)

-- Requests

structure Actor where
  attempt_id : String
  fence : Nat
  profile_id : String
  profile_revision : Nat
  model_family : Option String
  (context_id provenance_ref : String)
deriving DecidableEq

structure Writer where
  attempt_id : String
  fence : Nat
  stopped : Bool
  observation_ref : String
deriving DecidableEq

structure CheckPolicy where
  id : String
  revision : Nat
  argv : List String
  environment_sha256 : String
deriving DecidableEq

structure Reviewer where
  profile_id : String
  profile_revision : Nat
  model_family : Option String
  qualification_ref : String
deriving DecidableEq

structure ReviewPolicy where
  revision : Nat
  environment_sha256 : String
  approved_reviewers : List Reviewer
deriving DecidableEq

structure Policy where
  id : String
  revision : Nat
  checks : List CheckPolicy
  review : ReviewPolicy
deriving DecidableEq

inductive TaskClass
  | t1
  | t2
  | t3
deriving DecidableEq

structure Freeze where
  (series_id baseline_id input_sha256 : String)
  allowed_paths : List String
  task_class : TaskClass
  writer : Writer
  authors : List Actor
  policy : Policy
deriving DecidableEq

-- Files

inductive Mode
  | regular
  | executable
deriving DecidableEq

def Mode.text : Mode → String
  | .regular => "100644"
  | .executable => "100755"

structure Artifact where
  sha256 : String
  size : Nat
deriving DecidableEq

structure ManifestEntry where
  path : String
  mode : Mode
  blob_sha : String
  artifact : Artifact
deriving DecidableEq

abbrev Manifest := List ManifestEntry

def ManifestEntry.file (entry : ManifestEntry) : Mode × Artifact := (entry.mode, entry.artifact)

structure BaselineIdentity where
  (repository_identity base_sha tree_sha manifest_sha256 : String)

structure Baseline where
  (id repository_identity base_sha tree_sha : String)
  manifest : Manifest

-- Candidates

structure CandidateIdentity where
  (id series_id : String)
  revision : Nat
  (repository_identity base_sha tree_sha content_sha256 manifest_sha256 input_sha256 : String)
  (policy_sha256 baseline_id request_sha256 : String)
deriving DecidableEq

structure ReviewerSource where
  reviewer : Reviewer
  (qualification_source_digest authentication_source_digest : String)
deriving DecidableEq

structure ReviewerBinding where
  revision : Nat
  source_candidate : CandidateIdentity
  (run_id operation_id reviewer_task_id capture_digest approval_digest plan_digest : String)
  (execution_policy_digest reviewer_task_digest rulebook_digest : String)
  reviewer_sources : List ReviewerSource
deriving DecidableEq

structure ReviewRebindCommand where
  command_key : String
  binding : ReviewerBinding
deriving DecidableEq

structure ReviewRebind extends ReviewRebindCommand where
  (binding_sha256 request_sha256 : String)
deriving DecidableEq

structure ContentIdentity where
  (repository_identity base_sha tree_sha input_sha256 : String)
deriving DecidableEq

structure Candidate extends ContentIdentity where
  (id series_id : String)
  revision : Nat
  (content_sha256 manifest_sha256 : String)
  manifest : Manifest
  changed_paths : List String
  request : Freeze
  (policy_sha256 frozen_at : String)
  review_rebind : Option ReviewRebind
deriving DecidableEq

structure CurrentContext where
  (repository_identity base_sha input_sha256 policy_sha256 : String)
deriving DecidableEq

def Candidate.context (candidate : Candidate) : CurrentContext :=
  ⟨candidate.repository_identity, candidate.base_sha, candidate.input_sha256, candidate.policy_sha256⟩

-- Evidence

inductive Provenance
  | fixture
  | trustedObservation
deriving DecidableEq

structure EvidenceInput where
  (evidence_key candidate_id policy_sha256 input_sha256 environment_sha256 observation_ref : String)
  provenance : Provenance
deriving DecidableEq

inductive Outcome
  | completed
  | timedOut
  | cancelled
  | unknown
deriving DecidableEq

structure CheckResult extends EvidenceInput where
  check_id : String
  check_revision : Nat
  executor_ref : String
  exit_code : Option Int
  outcome : Outcome
deriving DecidableEq

inductive Severity
  | critical
  | high
  | medium
  | low
deriving DecidableEq

structure Finding where
  severity : Severity
  file : String
  line : Nat
  (behavior trigger acceptance_ref : String)
  blocking : Bool
deriving DecidableEq

inductive Verdict
  | passed
  | failed
  | inconclusive
deriving DecidableEq

structure ReviewResult extends EvidenceInput where
  review_revision : Nat
  check_evidence_ids : List String
  actor : Actor
  author_reasoning_included : Bool
  verdict : Verdict
  findings : List Finding
deriving DecidableEq

inductive Observation
  | check (result : CheckResult)
  | review (result : ReviewResult)
deriving DecidableEq

def Observation.input : Observation → EvidenceInput
  | .check result => result.toEvidenceInput
  | .review result => result.toEvidenceInput

inductive Status
  | passed
  | failed
  | inconclusive
  | unavailable
  | invalidated
deriving DecidableEq

inductive EvidenceReason
  | bindingMismatch
  | notIndependentOrQualified
  | familyIndependenceUnproven

structure Evidence where
  id : String
  observation : Observation
  status : Status
  reasons : List EvidenceReason
  log : Option Artifact
  recorded_at : String

def Evidence.input (item : Evidence) : EvidenceInput := item.observation.input

def Evidence.check? (item : Evidence) : Option CheckResult :=
  match item.observation with
  | .check result => some result
  | .review _ => none

def Evidence.review? (item : Evidence) : Option ReviewResult :=
  match item.observation with
  | .check _ => none
  | .review result => some result

-- Errors and digests

inductive CandidateError
  | pathInvalid
  | snapshotLimitExceeded
  | artifactUnavailable
  | gitOperationFailed
  | baselineInvalid
  | baselineFileTypeUnsupported
  | baselineNotFound
  | policyIdentityAmbiguous
  | writerStopNotConfirmed
  | workspaceLinkUnsupported
  | workspaceFileTypeUnsupported
  | workspaceUnavailable
  | controlStorageOverlap
  | pathOutsideAuthorization
  | candidateStorageUnavailable
  | candidateNotFound
  | candidateIdentityInvalid
  | candidateSuperseded
  | osError
  | projectionInputInvalid
  | projectionContentSetMismatch
  | projectionWriteScopeMismatch
  | projectionBaselineMismatch
  | projectionReadonlyChanged
  | captureIdentityInvalid
  | captureIdentityAmbiguous
  | evidenceKeyConflict
  | reviewSourceBindingMismatch
  | reviewRebindReceiptAmbiguous
  | reviewRebindReceiptInvalid
  | reviewRebindIdempotencyConflict

inductive Document
  | baseline (identity : BaselineIdentity)
  | content (identity : ContentIdentity)
  | manifest (manifest : Manifest)
  | policy (policy : Policy)
  | request (request : Freeze)
  | binding (binding : ReviewerBinding)
  | command (command : ReviewRebindCommand)

structure Library where
  (sha256 sha1 : Bytes → String)
  digest : Document → String
  isprintable : Char → Bool
  (lower casefold : String → String)

def Library.manifest_digest (lib : Library) (manifest : Manifest) : String := lib.digest (.manifest manifest)

end Karajan.Candidates
