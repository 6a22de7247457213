import Mathlib.Data.List.Dedup
import Mathlib.Data.List.Sort
import Karajan.Lib.Json
import Karajan.Lib.Check

/-!
# What the control plane takes from its platform

Unicode tables, floating-point rounding and the two digests come from the
language's own library. They are a parameter of the model, with the laws the
control plane relies on.
-/

namespace Karajan.Scheduling

structure Platform where
  (nfc casefold : String → String)
  isspace : Char → Bool
  str : Json → String
  double : Rat → Option Rat
  contentDigest : Json → String
  tokenDigest : String → String
  /-- A solidus neither composes with nor reorders past its neighbours. -/
  nfc_slash : ∀ s t, nfc (s ++ "/" ++ t) = s ++ "/" ++ t ↔ nfc s = s ∧ nfc t = t
  /-- Below the first combining mark nothing changes. -/
  nfc_latin : ∀ s : String, (∀ c ∈ s.toList, c.toNat < 0x300) → nfc s = s

-- Sorted collections of text

def sorted (texts : List String) : List String := texts.insertionSort (· ≤ ·)

def sortedSet (texts : List String) : List String := sorted texts.dedup

def notIn (permitted texts : List String) : List String :=
  sortedSet (texts.filter fun text => !permitted.contains text)

@[simp] theorem mem_sorted : text ∈ sorted texts ↔ text ∈ texts := List.mem_insertionSort _
@[simp] theorem mem_sortedSet : text ∈ sortedSet texts ↔ text ∈ texts := by simp [sortedSet]
@[simp] theorem length_sorted : (sorted texts).length = texts.length := List.length_insertionSort ..
@[simp] theorem mem_notIn : text ∈ notIn permitted texts ↔ text ∈ texts ∧ text ∉ permitted := by
  simp [notIn]

theorem notIn_eq_nil : notIn permitted texts = [] ↔ ∀ text ∈ texts, text ∈ permitted := by
  simp [List.eq_nil_iff_forall_not_mem]

-- Scheduling refusals

inductive Code
  | actionInvalid
  | actionUnsupported
  | capacityBusy
  | capacityUnknown
  | claimNotFound
  | claimSuperseded
  | contentNotSerializable
  | contractUnresolved
  | conversationInvalid
  | conversationNotFound
  | credentialExpired
  | credentialInvalid
  | credentialKindInvalid
  | credentialRecordChanged
  | credentialRevoked
  | credentialScopeInsufficient
  | credentialSubjectMismatch
  | credentialSubjectRequired
  | cursorInvalid
  | decisionInvalid
  | decisionNotFound
  | delegationDepthExceeded
  | delegationNotPermitted
  | dependencyCycle
  | dependencyFailed
  | dependencyUnsatisfied
  | deploymentInvalid
  | evidenceRefRequired
  | expansionAlreadyExists
  | expansionInvalid
  | expansionMembersMismatch
  | expansionMemberPolicyExceeded
  | expansionMemberStale
  | expansionNotFound
  | expansionNotPermitted
  | expansionNotSealed
  | expansionObligationsUncovered
  | expansionRecordChanged
  | expansionSealed
  | grantActionInvalid
  | grantActionNotPermitted
  | grantAlreadyExists
  | grantArtifactInvalid
  | grantBudgetRebound
  | grantChainInvalid
  | grantContractUnresolved
  | grantExpired
  | grantInputNotPermitted
  | grantInvalid
  | grantKindNotPermitted
  | grantKindUnresolved
  | grantMismatch
  | grantModelNotPermitted
  | grantNotASubset
  | grantNotFound
  | grantOutcomeNotPermitted
  | grantRecordChanged
  | grantRevoked
  | grantRoleNotPermitted
  | grantRoleUnresolved
  | grantScopeExceeded
  | grantSubjectMismatch
  | grantTermStale
  | grantToolNotPermitted
  | graphRecordChanged
  | graphRevisionConflict
  | idempotencyConflict
  | inputDigestMismatch
  | inputInvalid
  | inputMissing
  | inputReferenceUnresolved
  | inputUnknown
  | kindUnresolved
  | obligationCoverageInvalid
  | obligationUncovered
  | observationSourceUntrusted
  | outputContractIncompatible
  | projectNotFound
  | roleInvalid
  | roleUnresolved
  | runAlreadyExists
  | runInputInvalid
  | runInputMissing
  | runInputRequired
  | runInputUnexpected
  | runInvalid
  | runNotFound
  | runRecordChanged
  | runSourceStale
  | slotInvalid
  | sourceReplaced
  | sourceStale
  | stateUnavailable
  | taskAlreadyExists
  | taskFrozen
  | taskInvalid
  | taskNotClaimed
  | taskNotFound
  | taskNotOwned
  | taskNotReady
  | taskRecordChanged
  | taskSelfDependency
  | taskVersionMismatch
  | taskVersionNotFound
  | writeZoneBusy
  deriving DecidableEq, Repr

def Code.text : Code → String
  | .actionInvalid => "SCHEDULING_ACTION_INVALID"
  | .actionUnsupported => "SCHEDULING_ACTION_UNSUPPORTED"
  | .capacityBusy => "SCHEDULING_CAPACITY_BUSY"
  | .capacityUnknown => "SCHEDULING_CAPACITY_UNKNOWN"
  | .claimNotFound => "SCHEDULING_CLAIM_NOT_FOUND"
  | .claimSuperseded => "SCHEDULING_CLAIM_SUPERSEDED"
  | .contentNotSerializable => "SCHEDULING_CONTENT_NOT_SERIALIZABLE"
  | .contractUnresolved => "SCHEDULING_CONTRACT_UNRESOLVED"
  | .conversationInvalid => "SCHEDULING_CONVERSATION_INVALID"
  | .conversationNotFound => "SCHEDULING_CONVERSATION_NOT_FOUND"
  | .credentialExpired => "SCHEDULING_CREDENTIAL_EXPIRED"
  | .credentialInvalid => "SCHEDULING_CREDENTIAL_INVALID"
  | .credentialKindInvalid => "SCHEDULING_CREDENTIAL_KIND_INVALID"
  | .credentialRecordChanged => "SCHEDULING_CREDENTIAL_RECORD_CHANGED"
  | .credentialRevoked => "SCHEDULING_CREDENTIAL_REVOKED"
  | .credentialScopeInsufficient => "SCHEDULING_CREDENTIAL_SCOPE_INSUFFICIENT"
  | .credentialSubjectMismatch => "SCHEDULING_CREDENTIAL_SUBJECT_MISMATCH"
  | .credentialSubjectRequired => "SCHEDULING_CREDENTIAL_SUBJECT_REQUIRED"
  | .cursorInvalid => "SCHEDULING_CURSOR_INVALID"
  | .decisionInvalid => "SCHEDULING_DECISION_INVALID"
  | .decisionNotFound => "SCHEDULING_DECISION_NOT_FOUND"
  | .delegationDepthExceeded => "SCHEDULING_DELEGATION_DEPTH_EXCEEDED"
  | .delegationNotPermitted => "SCHEDULING_DELEGATION_NOT_PERMITTED"
  | .dependencyCycle => "SCHEDULING_DEPENDENCY_CYCLE"
  | .dependencyFailed => "SCHEDULING_DEPENDENCY_FAILED"
  | .dependencyUnsatisfied => "SCHEDULING_DEPENDENCY_UNSATISFIED"
  | .deploymentInvalid => "SCHEDULING_DEPLOYMENT_INVALID"
  | .evidenceRefRequired => "SCHEDULING_EVIDENCE_REF_REQUIRED"
  | .expansionAlreadyExists => "SCHEDULING_EXPANSION_ALREADY_EXISTS"
  | .expansionInvalid => "SCHEDULING_EXPANSION_INVALID"
  | .expansionMembersMismatch => "SCHEDULING_EXPANSION_MEMBERS_MISMATCH"
  | .expansionMemberPolicyExceeded => "SCHEDULING_EXPANSION_MEMBER_POLICY_EXCEEDED"
  | .expansionMemberStale => "SCHEDULING_EXPANSION_MEMBER_STALE"
  | .expansionNotFound => "SCHEDULING_EXPANSION_NOT_FOUND"
  | .expansionNotPermitted => "SCHEDULING_EXPANSION_NOT_PERMITTED"
  | .expansionNotSealed => "SCHEDULING_EXPANSION_NOT_SEALED"
  | .expansionObligationsUncovered => "SCHEDULING_EXPANSION_OBLIGATIONS_UNCOVERED"
  | .expansionRecordChanged => "SCHEDULING_EXPANSION_RECORD_CHANGED"
  | .expansionSealed => "SCHEDULING_EXPANSION_SEALED"
  | .grantActionInvalid => "SCHEDULING_GRANT_ACTION_INVALID"
  | .grantActionNotPermitted => "SCHEDULING_GRANT_ACTION_NOT_PERMITTED"
  | .grantAlreadyExists => "SCHEDULING_GRANT_ALREADY_EXISTS"
  | .grantArtifactInvalid => "SCHEDULING_GRANT_ARTIFACT_INVALID"
  | .grantBudgetRebound => "SCHEDULING_GRANT_BUDGET_REBOUND"
  | .grantChainInvalid => "SCHEDULING_GRANT_CHAIN_INVALID"
  | .grantContractUnresolved => "SCHEDULING_GRANT_CONTRACT_UNRESOLVED"
  | .grantExpired => "SCHEDULING_GRANT_EXPIRED"
  | .grantInputNotPermitted => "SCHEDULING_GRANT_INPUT_NOT_PERMITTED"
  | .grantInvalid => "SCHEDULING_GRANT_INVALID"
  | .grantKindNotPermitted => "SCHEDULING_GRANT_KIND_NOT_PERMITTED"
  | .grantKindUnresolved => "SCHEDULING_GRANT_KIND_UNRESOLVED"
  | .grantMismatch => "SCHEDULING_GRANT_MISMATCH"
  | .grantModelNotPermitted => "SCHEDULING_GRANT_MODEL_NOT_PERMITTED"
  | .grantNotASubset => "SCHEDULING_GRANT_NOT_A_SUBSET"
  | .grantNotFound => "SCHEDULING_GRANT_NOT_FOUND"
  | .grantOutcomeNotPermitted => "SCHEDULING_GRANT_OUTCOME_NOT_PERMITTED"
  | .grantRecordChanged => "SCHEDULING_GRANT_RECORD_CHANGED"
  | .grantRevoked => "SCHEDULING_GRANT_REVOKED"
  | .grantRoleNotPermitted => "SCHEDULING_GRANT_ROLE_NOT_PERMITTED"
  | .grantRoleUnresolved => "SCHEDULING_GRANT_ROLE_UNRESOLVED"
  | .grantScopeExceeded => "SCHEDULING_GRANT_SCOPE_EXCEEDED"
  | .grantSubjectMismatch => "SCHEDULING_GRANT_SUBJECT_MISMATCH"
  | .grantTermStale => "SCHEDULING_GRANT_TERM_STALE"
  | .grantToolNotPermitted => "SCHEDULING_GRANT_TOOL_NOT_PERMITTED"
  | .graphRecordChanged => "SCHEDULING_GRAPH_RECORD_CHANGED"
  | .graphRevisionConflict => "SCHEDULING_GRAPH_REVISION_CONFLICT"
  | .idempotencyConflict => "SCHEDULING_IDEMPOTENCY_CONFLICT"
  | .inputDigestMismatch => "SCHEDULING_INPUT_DIGEST_MISMATCH"
  | .inputInvalid => "SCHEDULING_INPUT_INVALID"
  | .inputMissing => "SCHEDULING_INPUT_MISSING"
  | .inputReferenceUnresolved => "SCHEDULING_INPUT_REFERENCE_UNRESOLVED"
  | .inputUnknown => "SCHEDULING_INPUT_UNKNOWN"
  | .kindUnresolved => "SCHEDULING_KIND_UNRESOLVED"
  | .obligationCoverageInvalid => "SCHEDULING_OBLIGATION_COVERAGE_INVALID"
  | .obligationUncovered => "SCHEDULING_OBLIGATION_UNCOVERED"
  | .observationSourceUntrusted => "SCHEDULING_OBSERVATION_SOURCE_UNTRUSTED"
  | .outputContractIncompatible => "SCHEDULING_OUTPUT_CONTRACT_INCOMPATIBLE"
  | .projectNotFound => "SCHEDULING_PROJECT_NOT_FOUND"
  | .roleInvalid => "SCHEDULING_ROLE_INVALID"
  | .roleUnresolved => "SCHEDULING_ROLE_UNRESOLVED"
  | .runAlreadyExists => "SCHEDULING_RUN_ALREADY_EXISTS"
  | .runInputInvalid => "SCHEDULING_RUN_INPUT_INVALID"
  | .runInputMissing => "SCHEDULING_RUN_INPUT_MISSING"
  | .runInputRequired => "SCHEDULING_RUN_INPUT_REQUIRED"
  | .runInputUnexpected => "SCHEDULING_RUN_INPUT_UNEXPECTED"
  | .runInvalid => "SCHEDULING_RUN_INVALID"
  | .runNotFound => "SCHEDULING_RUN_NOT_FOUND"
  | .runRecordChanged => "SCHEDULING_RUN_RECORD_CHANGED"
  | .runSourceStale => "SCHEDULING_RUN_SOURCE_STALE"
  | .slotInvalid => "SCHEDULING_SLOT_INVALID"
  | .sourceReplaced => "SCHEDULING_SOURCE_REPLACED"
  | .sourceStale => "SCHEDULING_SOURCE_STALE"
  | .stateUnavailable => "SCHEDULING_STATE_UNAVAILABLE"
  | .taskAlreadyExists => "SCHEDULING_TASK_ALREADY_EXISTS"
  | .taskFrozen => "SCHEDULING_TASK_FROZEN"
  | .taskInvalid => "SCHEDULING_TASK_INVALID"
  | .taskNotClaimed => "SCHEDULING_TASK_NOT_CLAIMED"
  | .taskNotFound => "SCHEDULING_TASK_NOT_FOUND"
  | .taskNotOwned => "SCHEDULING_TASK_NOT_OWNED"
  | .taskNotReady => "SCHEDULING_TASK_NOT_READY"
  | .taskRecordChanged => "SCHEDULING_TASK_RECORD_CHANGED"
  | .taskSelfDependency => "SCHEDULING_TASK_SELF_DEPENDENCY"
  | .taskVersionMismatch => "SCHEDULING_TASK_VERSION_MISMATCH"
  | .taskVersionNotFound => "SCHEDULING_TASK_VERSION_NOT_FOUND"
  | .writeZoneBusy => "SCHEDULING_WRITE_ZONE_BUSY"

structure Diagnostic where
  code : Code
  (location detail : String)

def locationPrefixes : List String := ["scheduling#", "run#", "grant#", "claim#", "task#"]

def at_ (pointer : String) : String :=
  if locationPrefixes.any fun p => startsWith pointer p then takeText 200 pointer else "scheduling#/"

def located (code : Code) (pointer detail : String) : Diagnostic := ⟨code, at_ pointer, detail⟩

structure SchedulingError where
  code : Code
  current_revision : Option Nat := none
  diagnostics : List Diagnostic := []
  fields : List (String × Json) := []

def plain (code : Code) : SchedulingError := { code }

def refusal (code : Code) (pointer detail : String) (fields : List (String × Json) := []) :
    SchedulingError :=
  { code, diagnostics := [located code pointer detail], fields }

def unknownFields (code : Code) (pointer : String) (unknown : List String) : SchedulingError :=
  { code, diagnostics := (unknown.take 8).map fun _ => located code pointer "unknown field" }

abbrev Chk := Except SchedulingError

/-- Failures that describe a durable-state disagreement the caller resolves by
re-reading. -/
def conflictCodes : List Code :=
  [.idempotencyConflict, .graphRevisionConflict, .sourceReplaced, .sourceStale, .runSourceStale,
   .grantRevoked, .grantExpired, .grantTermStale, .credentialRevoked, .credentialExpired,
   .writeZoneBusy, .runAlreadyExists, .expansionMemberPolicyExceeded, .taskAlreadyExists,
   .claimSuperseded, .taskFrozen, .taskNotReady, .capacityBusy, .capacityUnknown,
   .expansionSealed, .expansionNotSealed, .runRecordChanged, .taskRecordChanged,
   .graphRecordChanged, .grantRecordChanged, .dependencyUnsatisfied, .dependencyFailed]

def recordableRejections : List Code :=
  conflictCodes ++
  [.dependencyCycle, .obligationUncovered, .expansionObligationsUncovered, .expansionMemberStale,
   .expansionMembersMismatch, .expansionMemberPolicyExceeded, .inputDigestMismatch,
   .grantActionNotPermitted, .grantInputNotPermitted, .grantRoleNotPermitted,
   .grantKindNotPermitted, .grantModelNotPermitted, .grantToolNotPermitted,
   .grantOutcomeNotPermitted, .grantScopeExceeded, .taskFrozen, .taskAlreadyExists,
   .taskNotFound, .expansionNotPermitted, .expansionNotFound, .credentialSubjectMismatch,
   .grantMismatch, .inputReferenceUnresolved]

-- Validated identities, scopes and the one path-containment rule

open Check

def unprintable (c : Char) : Bool := c < ' ' || c == '\x7f'

def forbidden : List Char := ['<', '>', ':', '"', '|', '?', '*', '\\']

section
variable (value : Json) (code : Code) (pointer : String)

/-- One addressable identity: printable, bounded and never a location. -/
def boundedIdentifier : Chk String := do
  let text ← need value.str? (refusal code pointer "an identity is 1..128 printable characters")
  let chars := text.toList
  ensure (1 ≤ chars.length && chars.length ≤ 128)
    (refusal code pointer "an identity is 1..128 printable characters")
  ensure (!chars.any unprintable) (refusal code pointer "an identity is printable text")
  ensure (!(chars.any forbidden.contains || chars.contains '/'))
    (refusal code pointer "an identity is one name, not a location")
  ensure (chars.head? != some '.') (refusal code pointer "an identity is not a hidden name")
  return text

def optional (check : Json → Chk α) (value : Json) : Chk (Option α) :=
  match value with
  | .null => .ok none
  | _ => some <$> check value

def optionalIdentifier : Chk (Option String) :=
  optional (fun value => boundedIdentifier value code pointer) value

/-- One fixed reference: a name through a namespace, so `:` and `@` are part of
its grammar. -/
def boundedReference : Chk String := do
  let text ← need value.str? (refusal code pointer "a reference is 1..128 printable characters")
  let chars := text.toList
  ensure (1 ≤ chars.length && chars.length ≤ 128)
    (refusal code pointer "a reference is 1..128 printable characters")
  ensure (!chars.any unprintable) (refusal code pointer "a reference is printable text")
  ensure (!chars.any ['<', '>', '|', '?', '*', '/'].contains)
    (refusal code pointer "a reference is one name, not a location")
  ensure (chars.head? != some '.') (refusal code pointer "a reference is not a hidden name")
  return text

/-- The non-empty texts of a list value, none where it is anything else. -/
def texts? (value : Json) : Option (List String) := value.list?.bind fun items => items.mapM fun item =>
    item.str?.bind fun text => if text = "" then none else some text

/-- A bounded list of fixed references, each validated and unique. -/
def referenceList : Chk (List String) :=
  match value with
  | .null => .ok []
  | _ => do
    let items ← need (texts? value) (refusal code pointer "a list of references is required")
    ensure (items.length ≤ 256) (refusal code pointer "at most 256 entries are accepted")
    ensure items.Nodup (refusal code pointer "each entry appears once")
    each (fun item => boundedReference (.str item) code pointer) items

def count (value : Json) (minimum maximum : Nat) (error : SchedulingError) : Chk Nat :=
  match value with
  | .int n => if minimum ≤ n ∧ n ≤ maximum then .ok n.toNat else .error error
  | _ => .error error

def positiveCount (maximum : Nat := 1000000) :
    Chk Nat :=
  count value 1 maximum (refusal code pointer s!"a positive integer up to {maximum} is required")

def nonNegativeCount (maximum : Nat := 1000000) :
    Chk Nat :=
  count value 0 maximum (refusal code pointer s!"an integer from 0 to {maximum} is required")

end

def number (P : Platform) (value : Json) (code : Code) (pointer : String) : Chk Rat :=
  match value with
  | .int n => need (P.double n) (refusal code pointer "a finite number is required")
  | .float q => .ok q
  | _ => .error (refusal code pointer "a finite number is required")

-- Path scope

def segments (path : String) : List (List Char) := path.toList.splitOn '/'

section
variable (P : Platform) (value : Json) (code : Code) (pointer : String)

/-- One forward-slash relative path. A value that would change meaning under a
host's normalisation is refused rather than resolved. -/
def normalizedPath : Chk String := do
  let path ← need value.str? (refusal code pointer "a relative path is 1..256 characters")
  let chars := path.toList
  ensure (1 ≤ chars.length && chars.length ≤ 256)
    (refusal code pointer "a relative path is 1..256 characters")
  ensure (!chars.any unprintable) (refusal code pointer "a path has no control characters")
  ensure (!(chars.head? == some '/' || chars.head? == some '\\' || chars[1]? == some ':'))
    (refusal code pointer "a path is relative, not rooted")
  ensure (!chars.contains '\\') (refusal code pointer "a path is written with forward slashes only")
  ensure (path == P.nfc path) (refusal code pointer "a path is written in NFC form")
  ensure (!(segments path).any fun s => s == [] || s == ['.'] || s == ['.', '.'])
    (refusal code pointer "a path has no empty, '.' or '..' segment")
  ensure (!(segments path).any fun s => s.head? == some '/')
    (refusal code pointer "a path is relative, not rooted")
  return path

/-- One scope pattern: a literal path, a directory prefix, or a `**` suffix. -/
def normalizedPattern : Chk String := do
  let pattern ← need value.str? (refusal code pointer "a pattern is 1..256 characters")
  let chars := pattern.toList
  ensure (1 ≤ chars.length && chars.length ≤ 256)
    (refusal code pointer "a pattern is 1..256 characters")
  if endsWith pattern "/**" then do
    let head := dropEnd 3 pattern
    ensure (head != "") (refusal code pointer "'**' needs a directory before it")
    let path ← normalizedPath P (.str head) code pointer
    return path ++ "/**"
  else do
    ensure (!(chars.contains '*' || chars.contains '?' || chars.contains '['))
      (refusal code pointer "only a trailing '/**' wildcard is supported")
    normalizedPath P (.str pattern) code pointer

def normalizedPatterns (P : Platform) (items : List Json) (code : Code) (pointer : String) : Chk (List String) :=
  each (fun (item, index) => normalizedPattern P item code s!"{pointer}/{index}") items.zipIdx

/-- A declared scope: an explicit list of path patterns, never a bare string. -/
def normalizedScopes : Chk (List String) := do
  let items ← need value.list? (refusal code pointer "a scope is a non-empty list of path patterns")
  ensure (items.length != 0) (refusal code pointer "a scope is a non-empty list of path patterns")
  ensure (items.length ≤ 256) (refusal code pointer "a scope has at most 256 patterns")
  let patterns ← normalizedPatterns P items code pointer
  ensure patterns.Nodup (refusal code pointer "a scope declares each pattern once")
  return patterns

end

/-- Whether one normalised pattern already permits one normalised candidate. -/
def patternCovers (pattern candidate : String) : Bool :=
  if pattern = candidate then true
  else if endsWith pattern "/**" then
    let head := dropEnd 3 pattern
    candidate == head || startsWith candidate (head ++ "/") || candidate == head ++ "/**"
  else
    -- a plain path covers itself and, when it names a directory, everything below
    startsWith candidate (pattern ++ "/") ||
      (endsWith candidate "/**" && dropEnd 3 candidate == pattern)

def containsScope (outer inner : List String) : Bool :=
  inner.all fun candidate => outer.any fun pattern => patternCovers pattern candidate

def rstripDotsAndSpaces (text : List Char) : List Char :=
  (text.reverse.dropWhile fun c => c == '.' || c == ' ').reverse

/-- The one identity two declared write zones are the same directory by. -/
def zoneKey (P : Platform) (zone : String) : String :=
  String.ofList <| ['/'].intercalate <| (segments zone).map fun segment =>
    rstripDotsAndSpaces (P.casefold (P.nfc (String.ofList segment))).toList

def zoneRoot (P : Platform) (zone : String) : String :=
  String.ofList ((zoneKey P zone).toList.reverse.dropWhile (· == '/')).reverse

/-- Whether two declared zones can reach the same directory or file. -/
def zonesOverlap (P : Platform) (one other : String) : Bool :=
  let left := zoneRoot P one
  let right := zoneRoot P other
  left == right || startsWith left (right ++ "/") || startsWith right (left ++ "/")

-- What an accepted value is

theorem boundedIdentifier_ok (h : boundedIdentifier value code pointer = .ok text) : value = .str text := by
  simp only [boundedIdentifier, bind_ok, need_ok, pure_ok] at h
  cases value <;> simp_all [Json.str?]

theorem optional_ok {check : Json → Chk α} {value : Json} {o : Option α} : optional check value = .ok o ↔
      (value = .null ∧ o = none) ∨ (value ≠ .null ∧ ∃ a, check value = .ok a ∧ o = some a) := by
  unfold optional
  split
  · simp [eq_comm]
  case h_2 hne =>
    have hne : value ≠ .null := hne
    simp [map_ok, hne, eq_comm (b := o)]

end Karajan.Scheduling
