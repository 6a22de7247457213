import Karajan.Candidates.Freezing

/-!
# Freezing a projection

A projection names the baseline files a writer was shown, and which of them it
could change. Their bytes after it stopped are laid over the baseline, and the
workspace that results is frozen.
-/

namespace Karajan.Candidates

open Check
open GitTree (Bytes)

structure ProjectionRow where
  (path sha256 : String)
  writable : Bool
deriving DecidableEq

-- Projections

def projectionPart (lib : Library) (part : String) : Bool :=
  part ≠ "" && part ≠ "." && part ≠ ".." && lib.casefold part ≠ ".git" &&
    part.toList.getLast? ≠ some '.' && part.toList.getLast? ≠ some ' '

def ProjectionRow.wellFormed (lib : Library) (row : ProjectionRow) : Bool :=
  row.path.length ≤ 1024 &&
    row.path.toList.all (fun c => 32 ≤ c.toNat && c ∉ "\\:*?\"<>|[]".toList) &&
    (parts row.path).all (projectionPart lib) && isHex 64 row.sha256

/-- Two paths, their letters folded, of which one is the other or below it. -/
def foldedConflict (folded seen : String) : Bool :=
  folded = seen || folded.startsWith (seen ++ "/") || seen.startsWith (folded ++ "/")

def projectionRows (lib : Library) : (seen : List String) → List ProjectionRow → Bool
  | _, [] => true
  | seen, row :: rest =>
    row.wellFormed lib && !seen.any (foldedConflict (lib.casefold row.path)) &&
      projectionRows lib (lib.casefold row.path :: seen) rest

def projection_files (lib : Library) (projection : List ProjectionRow) : Option (List ProjectionRow) :=
  if 1 ≤ projection.length ∧ projection.length ≤ 512 ∧ projectionRows lib [] projection then
    some (projection.insertionSort fun a b => a.path ≤ b.path)
  else none

def sameSet (a b : List String) : Bool := a.all (· ∈ b) && b.all (· ∈ a)

def writablePaths (rows : List ProjectionRow) : List String := (rows.filter (·.writable)).map (·.path)

def Manifest.byPath (manifest : Manifest) : Dict String ManifestEntry :=
  .ofList (manifest.map fun entry => (entry.path, entry))

def preparedRow (lib : Library) (originals : Dict String ManifestEntry) (contents : Dict String Bytes)
    (row : ProjectionRow) : Except CandidateError (ManifestEntry × Bytes) := do
  let original ← need ((originals.get? row.path).filter (·.artifact.sha256 = row.sha256))
    .projectionBaselineMismatch
  let content ← need (contents.get? row.path) .projectionContentSetMismatch
  ensure (row.writable || lib.sha256 content = row.sha256) .projectionReadonlyChanged
  ensure (content.length ≤ MAX_FILE_BYTES) .snapshotLimitExceeded
  return (original, content)

def prepare_projection (lib : Library) (projection : List ProjectionRow)
    (contents : Dict String Bytes) (baseline : Baseline) (allowed_paths : List String) :
    Except CandidateError (List (ManifestEntry × Bytes)) := do
  let rows ← need (projection_files lib projection) .projectionInputInvalid
  ensure (allowed_paths.all fun path => (relative_path lib path false).isOk) .projectionInputInvalid
  ensure (sameSet contents.keys (rows.map (·.path))) .projectionContentSetMismatch
  ensure (sameSet allowed_paths (writablePaths rows)) .projectionWriteScopeMismatch
  let prepared ← each (preparedRow lib baseline.manifest.byPath contents) rows
  let total : Int := (baseline.manifest.map (·.artifact.size)).sum +
    (prepared.map fun p => (p.2.length : Int) - p.1.artifact.size).sum
  ensure (total ≤ MAX_SNAPSHOT_BYTES) .snapshotLimitExceeded
  return prepared

-- The scratch workspace

/-- The bytes of a manifest's files, each read from its artifact. -/
def materialized (lib : Library) (objects : Directory) :
    (total_bytes : Nat) → Manifest → Except CandidateError (List (ManifestEntry × Bytes))
  | _, [] => .ok []
  | total_bytes, entry :: rest => do
    relative_path lib entry.path false
    let content ← materialization_content lib objects entry.artifact
    ensure (total_bytes + content.length ≤ MAX_SNAPSHOT_BYTES) .snapshotLimitExceeded
    let prepared ← materialized lib objects (total_bytes + content.length) rest
    return (entry, content) :: prepared

def Apart (a b : String) : Prop := ¬ parts a <+: parts b ∧ ¬ parts b <+: parts a

instance : DecidableRel Apart := fun _ _ => inferInstanceAs (Decidable (_ ∧ _))

/-- The files that are written into a new directory. A file is created, so there is none
and no directory of its path, and none in the place of a directory above it. -/
def materialize (lib : Library) (objects : Directory) (manifest : Manifest) :
    Except CandidateError (List (ManifestEntry × Bytes)) := do
  ensure (manifest.length ≤ MAX_ENTRIES) .snapshotLimitExceeded
  let prepared ← materialized lib objects 0 manifest
  ensure (decide ((manifest.map (·.path)).Pairwise Apart)) .osError
  return prepared

/-- The file of an entry after the prepared contents are written. -/
def written (prepared : List (ManifestEntry × Bytes)) (file : ManifestEntry × Bytes) : WorkspaceFile :=
  let contents := Dict.ofList (prepared.map fun p => (p.1.path, p.2))
  ⟨file.1.path, (contents.get? file.1.path).getD file.2, file.1.mode = .executable⟩

def directoriesAbove (paths : List String) : List (List String) :=
  (paths.flatMap fun path => (parts path).inits.filter fun p => p ≠ [] && p ≠ parts path).dedup

def scratchEntries (files : List WorkspaceFile) : List WorkspaceEntry :=
  (directoriesAbove (files.map (·.path))).map (fun directory => ⟨"/".intercalate directory, .directory⟩) ++
    files.map fun file => ⟨file.path, .file file.content file.executable⟩

/-- The captured files of a projection, laid over its baseline and frozen. The scratch
directory may fail to be made, or to be written into. -/
def freeze_projection (lib : Library) (host : Host) (scratch : Except CandidateError Unit)
    (store : Store) (projection : List ProjectionRow) (contents : Dict String Bytes) (spec : Freeze)
    (id now : String) : Except CandidateError (Store × Candidate) := do
  ensure (decide spec.allowed_paths.Nodup) .projectionWriteScopeMismatch
  ensure spec.writerStopped .writerStopNotConfirmed
  let baseline ← get_baseline lib store spec.baseline_id
  let prepared ← prepare_projection lib projection contents baseline spec.allowed_paths
  scratch
  let files ← materialize lib host.objects baseline.manifest
  freeze lib host store spec (.ok (scratchEntries (files.map (written prepared)))) id now

-- Finding a committed capture

structure CapturedFile where
  (path sha256 : String)
  size : Nat
deriving DecidableEq

abbrev Files := Dict String (Mode × Artifact)

def Manifest.files (manifest : Manifest) : Files := .ofList (manifest.map fun entry => (entry.path, entry.file))

def sameFiles (a b : Files) : Bool :=
  a.entries.all (fun e => b.get? e.1 = some e.2) && b.entries.all (fun e => a.get? e.1 = some e.2)

def CapturedFile.wellFormed (file : CapturedFile) : Bool := isHex 64 file.sha256 && file.size ≤ MAX_FILE_BYTES

def capturedArtifacts (captured_files : List CapturedFile) : Dict String Artifact :=
  .ofList (captured_files.map fun file => (file.path, ⟨file.sha256, file.size⟩))

/-- One row of a projection, with what was captured of its file. -/
def expectRow (captured : Dict String Artifact) (expected : Files) (row : ProjectionRow) :
    Except CandidateError Files := do
  let original ← need (expected.get? row.path) .captureIdentityInvalid
  let after ← need (captured.get? row.path) .captureIdentityInvalid
  ensure (original.2.sha256 = row.sha256 && (row.writable || after = original.2))
    .captureIdentityInvalid
  return expected.put row.path (original.1, after)

section
variable (lib : Library)

def expected_files (spec : Freeze) (projection : List ProjectionRow)
    (captured_files : List CapturedFile) (baseline : Baseline) : Except CandidateError Files := do
  let rows ← need (projection_files lib projection) .captureIdentityInvalid
  ensure (captured_files.all (·.wellFormed)) .captureIdentityInvalid
  ensure (decide (captured_files.map (·.path)).Nodup &&
    sameSet (captured_files.map (·.path)) (rows.map (·.path))) .captureIdentityInvalid
  ensure (decide spec.allowed_paths.Nodup && sameSet spec.allowed_paths (writablePaths rows))
    .captureIdentityInvalid
  ensure (decide (baseline.manifest.map (·.path)).Nodup) .captureIdentityInvalid
  let expected ← rows.foldlM (expectRow (capturedArtifacts captured_files))
    (Manifest.files baseline.manifest)
  ensure ((expected.values.map fun file => file.2.size).sum ≤ MAX_SNAPSHOT_BYTES)
    .captureIdentityInvalid
  return expected

def tree_hash (manifest : Manifest) : Option String :=
  GitTree.hashed lib.sha1 modeBytes Prod.snd (GitTree.depth (Manifest.rows manifest) + 1)
    (Manifest.rows manifest)

def contentIdentity (spec : Freeze) (baseline : Baseline) (tree_sha : String) : ContentIdentity :=
  ⟨baseline.repository_identity, baseline.base_sha, tree_sha, spec.input_sha256⟩

/-- Whether a record is of the request and the files, and is what its manifest makes it. -/
def isCapture (record : Candidate) (spec : Freeze) (baseline : Baseline)
    (expected : Files) : Except CandidateError Bool :=
  if record.request ≠ spec then .ok false
  else if !sameFiles (Manifest.files record.manifest) expected ||
      record.manifest.length ≠ expected.entries.length then .ok false
  else do
    let tree_sha ← need (tree_hash lib record.manifest) .candidateIdentityInvalid
    let identity := contentIdentity spec baseline tree_sha
    return record.toContentIdentity = identity &&
      record.content_sha256 = lib.digest (.content identity) &&
      record.manifest_sha256 = lib.manifest_digest record.manifest &&
      record.policy_sha256 = lib.digest (.policy spec.policy)

def matching (test : Candidate → Except CandidateError Bool) :
    List Candidate → Except CandidateError (List Candidate)
  | [] => .ok []
  | record :: rest => do
    let found ← test record
    let more ← matching test rest
    return if found then record :: more else more

def theOnly : List Candidate → Except CandidateError (Option Candidate)
  | [] => .ok none
  | [record] => .ok (some record)
  | _ :: _ :: _ => .error .captureIdentityAmbiguous

def lookup_projection_capture (store : Store) (spec : Freeze)
    (projection : List ProjectionRow) (captured_files : List CapturedFile) :
    Except CandidateError (Option Candidate) := do
  ensure spec.writerStopped .writerStopNotConfirmed
  let baseline ← get_baseline lib store spec.baseline_id
  let expected ← expected_files lib spec projection captured_files baseline
  theOnly (← matching (isCapture lib · spec baseline expected) (store.series spec.series_id))

-- Rebinding the reviewers

def ReviewerBinding.reviewers (binding : ReviewerBinding) : List Reviewer :=
  binding.reviewer_sources.map (·.reviewer)

def reviewCommand (binding : ReviewerBinding) (command_key : String) :
    Except CandidateError ReviewRebindCommand := do
  ensure (decide (binding.reviewers.map fun r => (r.profile_id, r.profile_revision)).Nodup)
    .policyIdentityAmbiguous
  return ⟨command_key, binding⟩

-- Checking what is stored

def ManifestEntry.wellFormed (entry : ManifestEntry) : Bool :=
  isHex 40 entry.blob_sha && isHex 64 entry.artifact.sha256 && entry.artifact.size ≤ MAX_FILE_BYTES

def parents (path : List String) : List (List String) := path.inits.filter fun p => p ≠ [] && p ≠ path

def checkManifest (manifest : Manifest) : Except CandidateError Unit := do
  ensure (manifest.length ≤ MAX_ENTRIES) .candidateIdentityInvalid
  let _ ← each (fun (entry : ManifestEntry) => do
    relative_path lib entry.path false
    ensure entry.wellFormed .candidateIdentityInvalid) manifest
  let paths := manifest.map fun entry => parts entry.path
  ensure (decide paths.Nodup && (manifest.map (·.artifact.size)).sum ≤ MAX_SNAPSHOT_BYTES &&
    paths.all fun path => (parents path).all (· ∉ paths)) .candidateIdentityInvalid

/-- A stored record that is what its request and its manifest make it. -/
def checkedCandidate (store : Store) (candidate_id : String) : Except CandidateError Candidate := do
  let record ← need (store.candidate? candidate_id) .candidateNotFound
  checkManifest lib record.manifest
  let tree_sha ← need (tree_hash lib record.manifest) .candidateIdentityInvalid
  ensure (record.request.series_id = record.series_id &&
    record.request.input_sha256 = record.input_sha256 && record.request.writerStopped &&
    record.content_sha256 = lib.digest (.content record.toContentIdentity) &&
    record.manifest_sha256 = lib.manifest_digest record.manifest &&
    record.policy_sha256 = lib.digest (.policy record.request.policy) &&
    record.tree_sha = tree_sha) .candidateIdentityInvalid
  return record

def Candidate.fullIdentity (record : Candidate) : CandidateIdentity where
  id := record.id
  series_id := record.series_id
  revision := record.revision
  repository_identity := record.repository_identity
  base_sha := record.base_sha
  tree_sha := record.tree_sha
  content_sha256 := record.content_sha256
  manifest_sha256 := record.manifest_sha256
  input_sha256 := record.input_sha256
  policy_sha256 := record.policy_sha256
  baseline_id := record.request.baseline_id
  request_sha256 := lib.digest (.request record.request)

def sourceCandidate (store : Store) (command : ReviewRebindCommand) : Except CandidateError Candidate := do
  let expected := command.binding.source_candidate
  let source ← checkedCandidate lib store expected.id
  ensure (source.fullIdentity lib = expected) .reviewSourceBindingMismatch
  return source

-- The revision that a command makes

def Policy.withReviewers (policy : Policy) (reviewers : List Reviewer) : Policy :=
  { policy with review := { policy.review with approved_reviewers := reviewers } }

def Freeze.withReviewers (spec : Freeze) (reviewers : List Reviewer) : Freeze :=
  { spec with policy := spec.policy.withReviewers reviewers }

/-- The source with the reviewers of the command, as the revision it makes. -/
def derived (source : Candidate) (command : ReviewRebindCommand) (id frozen_at : String) : Candidate :=
  let request := source.request.withReviewers command.binding.reviewers
  { source with
    id := id
    revision := source.revision + 1
    frozen_at := frozen_at
    request := request
    policy_sha256 := lib.digest (.policy request.policy)
    review_rebind := some
      { command with
        binding_sha256 := lib.digest (.binding command.binding)
        request_sha256 := lib.digest (.command command) } }

def Candidate.commandKey (record : Candidate) : Option String := record.review_rebind.map (·.command_key)

def lookupRebind (store : Store) (command : ReviewRebindCommand) : Except CandidateError (Option Candidate) :=
  match store.candidates.filter (·.commandKey = some command.command_key) with
  | [] => .ok none
  | [row] => do
    let retained ← need row.review_rebind .reviewRebindReceiptInvalid
    ensure (retained.binding = command.binding) .reviewRebindIdempotencyConflict
    let source ← sourceCandidate lib store command
    let actual ← checkedCandidate lib store row.id
    ensure (actual = derived lib source command actual.id actual.frozen_at)
      .reviewRebindReceiptInvalid
    return some actual
  | _ :: _ :: _ => .error .reviewRebindReceiptAmbiguous

def lookup_review_rebind (store : Store) (binding : ReviewerBinding)
    (command_key : String) : Except CandidateError (Option Candidate) := do
  lookupRebind lib store (← reviewCommand binding command_key)

-- Rebinding

/-- Every file of a manifest is in the artifact directory, and is the object it is listed as. -/
def checkContents (objects : Directory) (manifest : Manifest) : Except CandidateError Unit := do
  let _ ← each (fun (entry : ManifestEntry) => do
    let body ← materialization_content lib objects entry.artifact
    ensure (lib.sha1 (GitTree.object "blob" body) = entry.blob_sha) .candidateIdentityInvalid) manifest

def checkSource (objects : Directory) (store : Store) (source : Candidate) : Except CandidateError Unit := do
  ensure (store.latest source.series_id = some source.revision) .candidateSuperseded
  let baseline ← get_baseline lib store source.request.baseline_id
  ensure (source.repository_identity = baseline.repository_identity &&
    source.base_sha = baseline.base_sha) .reviewSourceBindingMismatch
  checkManifest lib baseline.manifest
  let tree_sha ← need (tree_hash lib baseline.manifest) .candidateIdentityInvalid
  ensure (tree_sha = baseline.tree_sha) .baselineInvalid
  checkContents lib objects baseline.manifest
  checkContents lib objects source.manifest

/-- The command is carried out in one transaction, unless it was before. -/
def rebindNew (objects : Directory) (store : Store) (command : ReviewRebindCommand)
    (id now : String) : Except CandidateError (Store × Candidate) := do
  let source ← sourceCandidate lib store command
  checkSource lib objects store source
  let record := derived lib source command id now
  let store ← store.insertCandidate record
  return (store, record)

def rebind_reviewers (objects : Directory) (store : Store)
    (binding : ReviewerBinding) (command_key id now : String) : Except CandidateError (Store × Candidate) := do
  let command ← reviewCommand binding command_key
  match ← lookupRebind lib store command with
  | some prior => return (store, prior)
  | none => rebindNew lib objects store command id now

end

end Karajan.Candidates
