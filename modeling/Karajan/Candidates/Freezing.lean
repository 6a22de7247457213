import Karajan.Candidates.Models
import Mathlib.Algebra.Order.Ring.Int
import Mathlib.Data.List.DropRight
import Mathlib.Data.List.MinMax

/-!
# Freezing a workspace

The files of a workspace become a manifest over a registered baseline: every
file has its mode, its object and its artifact, and every change has to be in
an allowed path. What was captured is committed as the next revision of its
series, unless it is what the newest revision has already.
-/

namespace Karajan.Candidates

open Check
open GitTree (Bytes)
open Listing (sortedSet)

def MAX_FILE_BYTES : Nat := 8 * 1024 * 1024
def MAX_SNAPSHOT_BYTES : Nat := 64 * 1024 * 1024
def MAX_ENTRIES : Nat := 10000

-- Paths

def parts (path : String) : List String := (path.toList.splitOn '/').map String.ofList

def stripped (part : String) : List Char := part.toList.rdropWhile fun c => c = '.' || c = ' '

def partAllowed (lib : Library) (part : String) : Bool :=
  part ≠ "" && part ≠ "." && part ≠ ".." && lib.lower part ≠ ".git" && stripped part = part.toList

def relative_path (lib : Library) (value : String) (directory_allowed : Bool) : Except CandidateError Unit :=
  let path := if directory_allowed && value.toList.getLast? = some '/'
    then String.ofList value.toList.dropLast else value
  ensure (value ≠ "" && value.length ≤ 4096 &&
    value.toList.all (fun c => lib.isprintable c && c ∉ "\\:*?\"<>|".toList) &&
    (parts path).all (partAllowed lib)) .pathInvalid

-- Artifacts

/-- What is found under a name in the artifact directory. Bytes are found unshared where
they are those of a regular file of one name that no link leads to. -/
inductive Held
  | absent
  | unreadable
  | bytes (content : Bytes) (unshared : Bool)

abbrev Directory := String → Held

section
variable (lib : Library)

def available (objects : Directory) (reference : Artifact) : Bool :=
  match objects reference.sha256 with
  | .bytes content _ =>
    content.length = reference.size && lib.sha256 content = reference.sha256
  | .absent | .unreadable => false

def Held.exists : Held → Bool
  | .absent => false
  | .unreadable | .bytes .. => true

def artifact (objects : Directory) (content : Bytes) : Except CandidateError Artifact := do
  ensure (content.length ≤ MAX_FILE_BYTES) .snapshotLimitExceeded
  let reference := ⟨lib.sha256 content, content.length⟩
  ensure (!(objects reference.sha256).exists || available lib objects reference) .artifactUnavailable
  return reference

def isHex (digits : Nat) (text : String) : Bool := text.length = digits && text.toList.all fun c =>
    ('0' ≤ c && c ≤ '9') || ('a' ≤ c && c ≤ 'f')

def materialization_content (objects : Directory) (reference : Artifact) : Except CandidateError Bytes := do
  ensure (isHex 64 reference.sha256) .artifactUnavailable
  match objects reference.sha256 with
  | .bytes content true =>
    ensure (content.length ≤ MAX_FILE_BYTES && content.length = reference.size &&
      lib.sha256 content = reference.sha256) .artifactUnavailable
    return content
  | .bytes _ false | .absent | .unreadable => .error .artifactUnavailable

-- The store

/-- The tables. The columns of a row are those of the record it keeps. -/
structure Store where
  baselines : List Baseline
  candidates : List Candidate
  evidence : List Evidence

def Store.candidate? (store : Store) (id : String) : Option Candidate := store.candidates.find? (·.id = id)

def Store.get (store : Store) (id : String) : Except CandidateError Candidate :=
  need (store.candidate? id) .candidateNotFound

def Store.series (store : Store) (series_id : String) : List Candidate :=
  store.candidates.filter (·.series_id = series_id)

def Store.newest (store : Store) (series_id : String) : Option Candidate :=
  (store.series series_id).argmax (·.revision)

def Store.latest (store : Store) (series_id : String) : Option Nat :=
  ((store.series series_id).map (·.revision)).max?

def Store.insertCandidate (store : Store) (record : Candidate) : Except CandidateError Store := do
  ensure (store.candidates.all fun r =>
    r.id ≠ record.id && (r.series_id ≠ record.series_id || r.revision ≠ record.revision))
    .candidateStorageUnavailable
  return { store with candidates := store.candidates ++ [record] }

def Baseline.identity (baseline : Baseline) : BaselineIdentity :=
  ⟨baseline.repository_identity, baseline.base_sha, baseline.tree_sha, lib.manifest_digest baseline.manifest⟩

def checkedBaseline (baseline : Baseline) (baseline_id : String) : Except CandidateError Baseline := do
  ensure (baseline.id = baseline_id && lib.digest (.baseline (baseline.identity lib)) = baseline_id)
    .baselineInvalid
  return baseline

def Store.baseline? (store : Store) (id : String) : Option Baseline := store.baselines.find? (·.id = id)

def get_baseline (store : Store) (baseline_id : String) : Except CandidateError Baseline := do
  let baseline ← need (store.baseline? baseline_id) .baselineNotFound
  checkedBaseline lib baseline baseline_id

-- Baselines

/-- A row of a registered repository's tree, with the content of its object. -/
structure TreeEntry where
  (mode kind oid name : String)
  content : Bytes

def TreeEntry.mode? (entry : TreeEntry) : Option Mode :=
  if entry.mode = "100644" then some .regular
  else if entry.mode = "100755" then some .executable
  else none

def baselineManifest (lib : Library) (objects : Directory) :
    (count total_bytes : Nat) → List TreeEntry → Except CandidateError Manifest
  | _, _, [] => .ok []
  | count, total_bytes, entry :: rest => do
    ensure (entry.kind = "blob") .baselineFileTypeUnsupported
    let mode ← need entry.mode? .baselineFileTypeUnsupported
    relative_path lib entry.name false
    let total_bytes := total_bytes + entry.content.length
    ensure (entry.content.length ≤ MAX_FILE_BYTES && total_bytes ≤ MAX_SNAPSHOT_BYTES &&
      count < MAX_ENTRIES) .snapshotLimitExceeded
    let artifact ← artifact lib objects entry.content
    let manifest ← baselineManifest lib objects (count + 1) total_bytes rest
    return ⟨entry.name, mode, entry.oid, artifact⟩ :: manifest

structure Registered where
  (resolved tree_sha : String)
  entries : List TreeEntry

def register_baseline (objects : Directory) (repository : String → Option Registered)
    (store : Store) (repository_identity base_sha : String) : Except CandidateError (Store × Baseline) := do
  ensure (isHex 40 base_sha) .baselineInvalid
  let found ← need (repository base_sha) .gitOperationFailed
  let manifest ← baselineManifest lib objects 0 0 found.entries
  let id := lib.digest (.baseline ⟨repository_identity, found.resolved, found.tree_sha,
    lib.manifest_digest manifest⟩)
  let record : Baseline := ⟨id, repository_identity, found.resolved, found.tree_sha, manifest⟩
  -- a row of that id is left as it is
  if (store.baseline? id).isSome then return (store, record)
  return ({ store with baselines := store.baselines ++ [record] }, record)

-- Manifests

structure Host where
  nt : Bool
  objects : Directory
  hash_object : Bytes → Option String
  mktree : List GitTree.Row → Option String

def modeBytes (v : Mode × String) : Bytes := GitTree.encode v.1.text

def Manifest.rows (manifest : Manifest) : GitTree.Paths (Mode × String) :=
  manifest.map fun entry => (parts entry.path, (entry.mode, entry.blob_sha))

def tree (host : Host) (manifest : Manifest) : Except CandidateError String :=
  need (GitTree.made host.mktree modeBytes Prod.snd (GitTree.depth manifest.rows + 1) manifest.rows)
    .gitOperationFailed

inductive EntryKind
  | directory
  | file (content : Bytes) (executable : Bool)
  | link
  | special

/-- What is met when a workspace is walked, by its path below the root. -/
structure WorkspaceEntry where
  path : String
  kind : EntryKind

structure WorkspaceFile where
  path : String
  content : Bytes
  executable : Bool

def walked (entries : List WorkspaceEntry) : List WorkspaceEntry :=
  entries.filter fun entry => (parts entry.path).head?.all (lib.lower · ≠ ".git")

def collect : (entry_count total_bytes : Nat) → List WorkspaceEntry → Except CandidateError (List WorkspaceFile)
  | _, _, [] => .ok []
  | entry_count, total_bytes, entry :: rest => do
    ensure (entry_count < MAX_ENTRIES) .snapshotLimitExceeded
    match entry.kind with
    | .link => .error .workspaceLinkUnsupported
    | .directory => collect (entry_count + 1) total_bytes rest
    | .file content executable =>
      let total_bytes := total_bytes + content.length
      ensure (content.length ≤ MAX_FILE_BYTES && total_bytes ≤ MAX_SNAPSHOT_BYTES)
        .snapshotLimitExceeded
      let files ← collect (entry_count + 1) total_bytes rest
      return ⟨entry.path, content, executable⟩ :: files
    | .special => .error .workspaceFileTypeUnsupported

def byParts (files : List WorkspaceFile) : List WorkspaceFile :=
  files.insertionSort fun a b => parts a.path ≤ parts b.path

def fileMode (host : Host) (modes : Dict String Mode) (file : WorkspaceFile) : Mode :=
  if host.nt then (modes.get? file.path).getD .regular
  else if file.executable then .executable else .regular

def manifestEntry (host : Host) (modes : Dict String Mode) (file : WorkspaceFile) :
    Except CandidateError ManifestEntry := do
  relative_path lib file.path false
  let oid ← need (host.hash_object file.content) .gitOperationFailed
  let artifact ← artifact lib host.objects file.content
  return ⟨file.path, fileMode host modes file, oid, artifact⟩

def Manifest.objects (manifest : Manifest) : Dict String (Mode × String) :=
  .ofList (manifest.map fun entry => (entry.path, (entry.mode, entry.blob_sha)))

def changedPaths (before after : Dict String (Mode × String)) : List String :=
  sortedSet ((before.keys ++ after.keys).filter fun path => before.get? path ≠ after.get? path)

def pathAllowed (allowed_paths : List String) (path : String) : Bool := allowed_paths.any fun allowed =>
    path = allowed || (allowed.endsWith "/" && path.startsWith allowed)

-- Capturing

structure Capture where
  request : Freeze
  identity : ContentIdentity
  manifest : Manifest
  changed_paths : List String

def Policy.reviewerNames (policy : Policy) : List (String × Nat) :=
  policy.review.approved_reviewers.map fun item => (item.profile_id, item.profile_revision)

def Freeze.writerStopped (spec : Freeze) : Bool := spec.writer.stopped && spec.authors.any fun author =>
    author.attempt_id = spec.writer.attempt_id && author.fence = spec.writer.fence

/-- What is asked of a request before its workspace is looked at. -/
def Freeze.check (spec : Freeze) : Except CandidateError Unit := do
  let _ ← each (relative_path lib · true) spec.allowed_paths
  ensure (decide (spec.policy.checks.map (·.id)).Nodup && decide spec.policy.reviewerNames.Nodup)
    .policyIdentityAmbiguous
  ensure spec.writerStopped .writerStopNotConfirmed

def captured (host : Host) (baseline : Baseline) (spec : Freeze)
    (workspace : List WorkspaceEntry) : Except CandidateError Capture := do
  let modes := Dict.ofList (baseline.manifest.map fun entry => (entry.path, entry.mode))
  let files ← collect 0 0 (walked lib workspace)
  let manifest ← each (manifestEntry lib host modes) (byParts files)
  let changes := changedPaths baseline.manifest.objects (Manifest.objects manifest)
  ensure (changes.all (pathAllowed spec.allowed_paths)) .pathOutsideAuthorization
  let tree_sha ← tree host manifest
  return ⟨spec, ⟨baseline.repository_identity, baseline.base_sha, tree_sha, spec.input_sha256⟩,
    manifest, changes⟩

/-- What freezing a workspace captures, where the walk of the workspace is known. -/
def capture (host : Host) (store : Store) (spec : Freeze)
    (workspace : Except CandidateError (List WorkspaceEntry)) : Except CandidateError Capture := do
  spec.check lib
  let baseline ← need (store.baseline? spec.baseline_id) .baselineNotFound
  captured lib host baseline spec (← workspace)

def Capture.record (capture : Capture) (revision : Nat) (id now : String) : Candidate :=
  { capture.identity with
    id := id
    series_id := capture.request.series_id
    revision := revision
    content_sha256 := lib.digest (.content capture.identity)
    manifest_sha256 := lib.manifest_digest capture.manifest
    manifest := capture.manifest
    changed_paths := capture.changed_paths
    request := capture.request
    policy_sha256 := lib.digest (.policy capture.request.policy)
    frozen_at := now
    review_rebind := none }

def commit (store : Store) (capture : Capture) (id now : String) : Except CandidateError (Store × Candidate) := do
  let previous := store.newest capture.request.series_id
  match previous.filter fun p =>
      p.content_sha256 = lib.digest (.content capture.identity) && p.request = capture.request with
  | some previous => return (store, previous)
  | none =>
    let record := capture.record lib ((previous.map (·.revision)).getD 0 + 1) id now
    let store ← store.insertCandidate record
    return (store, record)

/-- A workspace is frozen. Baselines are not changed, so it does not matter that the one
of the request is read before the transaction. -/
def freeze (host : Host) (store : Store) (spec : Freeze)
    (workspace : Except CandidateError (List WorkspaceEntry)) (id now : String) :
    Except CandidateError (Store × Candidate) := do
  commit lib store (← capture lib host store spec workspace) id now

end

end Karajan.Candidates
