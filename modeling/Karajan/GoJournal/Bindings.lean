import Karajan.Lib.Contract
import Mathlib.Algebra.Order.Ring.Rat

/-!
# Grant bindings

A grant is bound to the attempt, profile and limits it was made for. Bindings
come in several schemas, told apart by their version, or where they have none
by their subject.
-/

namespace Karajan.GoJournal

open Json (int? str? sorted)

structure Library where
  whitespace : Char → Bool
  digest : String → String

-- Values of fields

def identifierText (text : String) : Bool := 0 < text.length && text.length ≤ 160 && text.toList.all fun c =>
    c.isAlphanum || c = '_' || c = '.' || c = ':' || c = '-'

def digestText (text : String) : Bool :=
  text.length = 64 && text.toList.all fun c => 'a' ≤ c && c ≤ 'f' || '0' ≤ c && c ≤ '9'

def Library.identifier (L : Library) (text : String) : Bool :=
  0 < text.length && text.length ≤ 256 && text.toList.all fun c => !L.whitespace c

def within (low high n : Int) : Bool := low ≤ n && n ≤ high

def positive : Int → Bool := within 1 (2 ^ 63 - 1)

def count : Int → Bool := within 0 (2 ^ 63 - 1)

-- Schemas

def commonGrantBinding : List ContractField := [
  textField "attempt_id" identifierText,
  intField "fence" positive,
  textField "profile_digest" digestText,
  textField "runtime_digest" digestText,
  textField "channel" identifierText,
  literalField "model" "glm-5.3-flash",
  textField "auth_generation" identifierText,
  floatField "expires_at" (0 < ·),
  intField "max_requests" (within 1 6)]

def grantBinding : List ContractField := commonGrantBinding ++ [textField "qualification_id" identifierText]

def goQualificationLimits : List ContractField := [
  textField "source_sha256" digestText,
  intField "approved_input_tokens" (within 1 1000000),
  intField "reserved_output_tokens" (within 1 131072),
  intField "operating_context_tokens" (within 1 1000000),
  intField "fixed_margin" (within 0 1000000),
  intField "ratio_margin_basis_points" (within 0 10000)]

def probeGrant (schema_version : String) (scenarios : List String) : List ContractField :=
  grantBinding ++ [
    literalField "schema_version" schema_version,
    textField "probe_spec_digest" digestText,
    textField "scenario" (scenarios.contains ·),
    contractField "context" goQualificationLimits]

def qualificationGrantV2 : List ContractField :=
  probeGrant "karajan.go-qualification-grant.v2" ["edit", "denied_read"]

def reviewerQualificationGrant : List ContractField :=
  probeGrant "karajan.go-reviewer-qualification-grant.v1" ["clean_review", "defect_review", "denied_read"]

def commanderQualificationGrant : List ContractField :=
  probeGrant "karajan.go-commander-qualification-grant.v1" ["legal_plan", "denied_tool"]

section
variable (L : Library)

def subject (kind : String) (names : List String) : List ContractField :=
  literalField "kind" kind :: names.map fun name => textField name L.identifier

def planningSubject : List ContractField :=
  subject L "planning_execution" ["project_id", "run_id", "intent_id", "execution_id"]

def taskSubject : List ContractField := subject L "task_attempt" ["project_id", "run_id", "task_id"]

def reviewerNativeSubject : List ContractField :=
  subject L "reviewer_execution" ["project_id", "run_id", "reviewer_operation_id",
    "worker_operation_id", "reviewer_task_id", "execution_id"]

def planningGrantBinding : List ContractField :=
  commonGrantBinding ++ [
    literalField "schema_version" "karajan.go-planning-grant.v1",
    contractField "subject" (planningSubject L),
    textField "planning_binding_sha256" digestText,
    textField "admission_sha256" digestText,
    textField "input_sha256" digestText,
    textField "authentication_source_digest" digestText]

def planningNativeGrantBinding : List ContractField :=
  commonGrantBinding ++ [
    literalField "schema_version" "karajan.go-planning-native-grant.v1",
    contractField "subject" (planningSubject L),
    textField "planning_binding_sha256" digestText,
    textField "admission_sha256" digestText,
    textField "input_sha256" digestText,
    textField "authentication_source_digest" digestText,
    contractField "context" goQualificationLimits,
    literalField "tool_policy" "none"]

def taskGrantBinding : List ContractField :=
  commonGrantBinding ++ [
    contractField "subject" (taskSubject L),
    textField "approval_digest" digestText,
    textField "execution_policy_digest" digestText,
    textField "workspace_digest" digestText,
    textField "authentication_source_digest" digestText]

def reviewerNativeGrantBinding : List ContractField :=
  commonGrantBinding ++ [
    literalField "schema_version" "karajan.go-reviewer-native-grant.v1",
    contractField "subject" (reviewerNativeSubject L),
    textField "review_binding_sha256" digestText,
    textField "reviewer_input_sha256" digestText,
    textField "candidate_checks_sha256" digestText,
    textField "authentication_source_digest" digestText,
    contractField "context" goQualificationLimits,
    literalField "tool_policy" "read"]

def versioned : String → Option (List ContractField)
  | "karajan.go-planning-grant.v1" => some (planningGrantBinding L)
  | "karajan.go-planning-native-grant.v1" => some (planningNativeGrantBinding L)
  | "karajan.go-reviewer-native-grant.v1" => some (reviewerNativeGrantBinding L)
  | "karajan.go-reviewer-qualification-grant.v1" => some reviewerQualificationGrant
  | "karajan.go-commander-qualification-grant.v1" => some commanderQualificationGrant
  | "karajan.go-qualification-grant.v2" => some qualificationGrantV2
  | _ => none

end

def qualificationFirst : Json → Json
  | .object fields =>
    match findField fields "qualification_id" with
    | some qualification_id =>
      .object (("qualification_id", qualification_id) :: fields.filter (·.1 ≠ "qualification_id"))
    | none => .object fields
  | v => v

/-- A binding as its schema reads it; a version that is not known is none. -/
def Library.binding (L : Library) : Json → Option Json
  | .object given =>
    match findField given "schema_version" with
    | some schema_version => do
      let fields ← versioned L (← schema_version.str?)
      readContract fields (.object given)
    | none =>
      if (findField given "subject").isSome then readContract (taskGrantBinding L) (.object given)
      else (readContract grantBinding (.object given)).map qualificationFirst
  | _ => none

def fieldOf (value : Json) (name : String) : Option Json :=
  match value with
  | .object given => findField given name
  | _ => none

def rational? : Json → Option Rat
  | .float q => some q
  | _ => none

def expiresAt (binding : Json) : Option Rat := (fieldOf binding "expires_at").bind rational?

def maxRequests (binding : Json) : Option Int := (fieldOf binding "max_requests").bind int?

-- Measurements and outcomes

def contextMeasurement : List ContractField := [
  literalField "schema_version" "karajan.go-context-measurement.v1",
  literalField "model" "glm-5.3-flash",
  literalField "measurement_method" "reference_tokenizer_estimate",
  literalField "measurement_confidence" "local_estimate",
  textField "request_digest" digestText,
  textField "source_sha256" digestText,
  intField "local_input_tokens" (within 1 1000000),
  intField "fixed_margin" (within 0 2000000),
  intField "ratio_margin_basis_points" (within 0 10000),
  intField "margin_tokens" (within 0 2000000),
  intField "accounted_input_tokens" (within 1 1000000),
  intField "requested_output_tokens" (within 1 131072),
  intField "approved_input_tokens" (within 1 1000000),
  intField "reserved_output_tokens" (within 1 131072),
  intField "operating_context_tokens" (within 1 1000000),
  intField "declared_context_tokens" (· = 1000000),
  intField "declared_max_output_tokens" (· = 131072),
  textField "template_reasoning_effort" (["low", "high", "max"].contains ·),
  .required "template_clear_thinking" fun v => if v = .bool false then some v else none]

def intOf (value : Json) (name : String) : Int := ((fieldOf value name).bind int?).getD 0

/-- The margin is what the ratio makes of the input, and all of it is within what was approved. -/
def consistentMeasurement (v : Json) : Bool :=
  let margin := intOf v "fixed_margin" +
    (intOf v "local_input_tokens" * intOf v "ratio_margin_basis_points" + 9999) / 10000
  intOf v "margin_tokens" = margin &&
    intOf v "accounted_input_tokens" = intOf v "local_input_tokens" + margin &&
    intOf v "accounted_input_tokens" ≤ intOf v "approved_input_tokens" &&
    intOf v "requested_output_tokens" ≤ intOf v "reserved_output_tokens" &&
    intOf v "accounted_input_tokens" + intOf v "reserved_output_tokens" ≤
      intOf v "operating_context_tokens"

def measurement (value : Json) : Option Json :=
  (readContract contextMeasurement value).filter consistentMeasurement

def reasons : List String := [
  "ACTIVE_HANDLER_REMAINS", "CHOICE_AFTER_FINISH", "CLIENT_CLOSE_FAILED",
  "CONTEXT_PROVIDER_USAGE_MISSING", "CONTEXT_PROVIDER_INPUT_EXCEEDED",
  "CONTEXT_PROVIDER_OUTPUT_EXCEEDED", "CONTEXT_REVOCATION_FAILED", "DATA_AFTER_TERMINATOR",
  "DENIED_CANARY_IN_REQUEST", "DUPLICATE_JSON_KEY", "INCOMPLETE_REQUEST", "INCOMPLETE_SSE",
  "INCOMPLETE_TOOL_CALL", "INVALID_BODY_LENGTH", "INVALID_CAPABILITY", "INVALID_CHOICES",
  "INVALID_DELTA", "INVALID_GO_COST_TRAILER", "INVALID_JSON", "INVALID_MAX_TOKENS",
  "INVALID_MESSAGES", "INVALID_MODEL", "INVALID_PATH", "INVALID_REQUEST_OBJECT",
  "INVALID_SESSION_HEADER", "INVALID_SSE_JSON", "INVALID_SSE", "INVALID_TOOL_CALLS",
  "INVALID_TOOL_NAME", "INVALID_UPSTREAM_CONTENT_TYPE", "INVALID_USAGE", "METHOD_NOT_ALLOWED",
  "MISSING_MODEL", "MODEL_MISMATCH", "NONFINITE_JSON_NUMBER", "RELAY_CLOSING",
  "RELAY_TRANSPORT_ERROR", "REQUEST_LIMIT_REACHED", "REQUEST_TOO_LARGE", "SERVER_THREAD_REMAINS",
  "STREAM_REQUIRED", "UNAPPROVED_TOOL", "UNEXPECTED_CONTENT_ENCODING", "UNEXPECTED_SSE_FIELD",
  "UNSUCCESSFUL_FINISH", "UPSTREAM_CREDENTIAL_ECHO", "UPSTREAM_ERROR_EVENT",
  "UPSTREAM_HTTP_ERROR", "UPSTREAM_RESPONSE_TOO_LARGE"]

def usage : List ContractField := [
  .nullable "prompt_tokens" (readInt count),
  .nullable "completion_tokens" (readInt count),
  .nullable "total_tokens" (readInt count),
  .nullable "prompt_tokens_details" (readContract [.nullable "cached_tokens" (readInt count)]),
  .nullable "completion_tokens_details" (readContract [.nullable "reasoning_tokens" (readInt count)])]

def outcomeFields : List ContractField := [
  textField "state" (["response_received", "send_unknown", "rejected"].contains ·),
  .nullable "upstream_status" (readInt (within 100 599)),
  ⟨"response_bytes", readInt count, some (.int 0)⟩,
  ⟨"usage", readContract usage, some (.object [])⟩,
  ⟨"protocol_passed", readBool, some (.bool false)⟩,
  ⟨"reason_codes", readTexts (reasons.contains ·) 8, some (.list [])⟩]

/-- A response has its status, and a protocol that passed has nothing against it. -/
def consistentOutcome (v : Json) : Bool :=
  (fieldOf v "state" ≠ some (.str "response_received") || (fieldOf v "upstream_status").isSome) &&
  (fieldOf v "protocol_passed" ≠ some (.bool true) ||
    (fieldOf v "state" = some (.str "response_received") &&
      fieldOf v "upstream_status" = some (.int 200) && fieldOf v "response_bytes" ≠ some (.int 0) &&
      fieldOf v "reason_codes" = some (.list [])))

def withStatus : Json → Json
  | .object fields =>
    if (findField fields "upstream_status").isSome then .object fields
    else .object (fields ++ [("upstream_status", .null)])
  | v => v

def outcome (value : Json) : Option Json :=
  ((readContract outcomeFields value).filter consistentOutcome).map withStatus

-- Schemas read what they write

variable {L : Library}

theorem goQualificationLimits_lawful : LawfulFields goQualificationLimits where
  nodup := by decide
  lawful := by simp [goQualificationLimits]

theorem grantBinding_lawful : LawfulFields grantBinding where
  nodup := by decide
  lawful := by simp [grantBinding, commonGrantBinding]

open ContractField (required)

theorem subject_lawful (h : ("kind" :: names).Nodup) : LawfulFields (subject L kind names) where
  nodup := by simpa [subject, literalField, textField, required, Function.comp_def] using h
  lawful := by simp [subject]

theorem probeGrant_lawful (schema_version : String) (scenarios : List String) :
    LawfulFields (probeGrant schema_version scenarios) where
  nodup := by
    have hnames : (probeGrant schema_version scenarios).map (·.name) = (probeGrant "" []).map (·.name) := rfl
    rw [hnames]
    decide
  lawful := by
    simp [probeGrant, grantBinding, commonGrantBinding,
      contractField_lawful "context" goQualificationLimits_lawful]

theorem taskGrantBinding_lawful : LawfulFields (taskGrantBinding L) where
  nodup := by simp [taskGrantBinding, commonGrantBinding, textField, literalField, intField, floatField,
    contractField, required]
  lawful := by
    have hsubject : LawfulFields (taskSubject L) := subject_lawful (by decide)
    simp [taskGrantBinding, commonGrantBinding, contractField_lawful "subject" hsubject]

theorem planningGrantBinding_lawful : LawfulFields (planningGrantBinding L) where
  nodup := by simp [planningGrantBinding, commonGrantBinding, textField, literalField, intField,
    floatField, contractField, required]
  lawful := by
    have hsubject : LawfulFields (planningSubject L) := subject_lawful (by decide)
    simp [planningGrantBinding, commonGrantBinding, contractField_lawful "subject" hsubject]

theorem planningNativeGrantBinding_lawful : LawfulFields (planningNativeGrantBinding L) where
  nodup := by simp [planningNativeGrantBinding, commonGrantBinding, textField, literalField, intField,
    floatField, contractField, required]
  lawful := by
    have hsubject : LawfulFields (planningSubject L) := subject_lawful (by decide)
    simp [planningNativeGrantBinding, commonGrantBinding, contractField_lawful "subject" hsubject,
      contractField_lawful "context" goQualificationLimits_lawful]

theorem reviewerNativeGrantBinding_lawful : LawfulFields (reviewerNativeGrantBinding L) where
  nodup := by simp [reviewerNativeGrantBinding, commonGrantBinding, textField, literalField, intField,
    floatField, contractField, required]
  lawful := by
    have hsubject : LawfulFields (reviewerNativeSubject L) := subject_lawful (by decide)
    simp [reviewerNativeGrantBinding, commonGrantBinding, contractField_lawful "subject" hsubject,
      contractField_lawful "context" goQualificationLimits_lawful]

theorem versioned_lawful (h : versioned L version = some fields) :
    LawfulFields fields ∧ literalField "schema_version" version ∈ fields ∧
      ∀ f ∈ commonGrantBinding, f ∈ fields := by
  unfold versioned at h
  split at h <;> cases h
  · exact ⟨planningGrantBinding_lawful, by simp [planningGrantBinding], by
    intro f hf; simp [planningGrantBinding, hf]⟩
  · exact ⟨planningNativeGrantBinding_lawful, by simp [planningNativeGrantBinding], by
    intro f hf; simp [planningNativeGrantBinding, hf]⟩
  · exact ⟨reviewerNativeGrantBinding_lawful, by simp [reviewerNativeGrantBinding], by
    intro f hf; simp [reviewerNativeGrantBinding, hf]⟩
  · exact ⟨probeGrant_lawful _ _, by simp [reviewerQualificationGrant, probeGrant], by
    intro f hf; simp [reviewerQualificationGrant, probeGrant, grantBinding, hf]⟩
  · exact ⟨probeGrant_lawful _ _, by simp [commanderQualificationGrant, probeGrant], by
    intro f hf; simp [commanderQualificationGrant, probeGrant, grantBinding, hf]⟩
  · exact ⟨probeGrant_lawful _ _, by simp [qualificationGrantV2, probeGrant], by
    intro f hf; simp [qualificationGrantV2, probeGrant, grantBinding, hf]⟩

-- Bindings are read as they are written

theorem findField_filter_ne (h : name ≠ other) :
    findField (fields.filter (·.1 ≠ other)) name = findField fields name := by
  induction fields with
  | nil => rfl
  | cons e rest ih =>
    by_cases hother : e.1 = other
    · have hne : e.1 ≠ name := hother ▸ Ne.symm h
      simpa [hother, findField, hother ▸ hne] using ih
    · simp only [ne_eq, hother, not_false_eq_true, decide_true, List.filter_cons_of_pos, findField]
      rw [← ih]

theorem qualificationFirst_object (fields : Fields) : ∃ fields',
    qualificationFirst (.object fields) = .object fields' ∧
      ∀ name, findField fields' name = findField fields name := by
  simp only [qualificationFirst]
  split
  case h_1 qualification_id hfound =>
    refine ⟨_, rfl, fun name => ?_⟩
    by_cases hname : "qualification_id" = name
    · simp [findField, ← hname, hfound]
    · simp only [findField, hname, if_false]
      exact findField_filter_ne (Ne.symm hname)
  · exact ⟨fields, rfl, fun _ => rfl⟩

theorem contract_literal (hl : LawfulFields fields)
    (h : readContract fields v = some v') (hf : literalField name text ∈ fields) :
    ∃ given, v' = .object given ∧ findField given name = some (.str text) := by
  obtain ⟨given, u, w, rfl, hfound, hread⟩ := contract_required hl.nodup h hf (readText_not_null _)
  refine ⟨given, rfl, ?_⟩
  cases u with
  | str s =>
    simp only [readText, decide_eq_true_eq] at hread
    split at hread
    case isTrue heq => cases hread; rw [hfound, heq]
    · cases hread
  | _ => cases hread

open Library (binding)

theorem binding_cases (h : L.binding v = some b) : ∃ given, v = .object given ∧
    ((∃ version fields, findField given "schema_version" = some (.str version) ∧
        versioned L version = some fields ∧ readContract fields v = some b) ∨
      (findField given "schema_version" = none ∧ (findField given "subject").isSome = true ∧
        readContract (taskGrantBinding L) v = some b) ∨
      (findField given "schema_version" = none ∧ findField given "subject" = none ∧
        ∃ d, readContract grantBinding v = some d ∧ b = qualificationFirst d)) := by
  cases v with
  | object given =>
    refine ⟨given, rfl, ?_⟩
    simp only [binding] at h
    split at h
    case h_1 schema_version hfound =>
      simp only [Option.bind_eq_bind, Option.bind_eq_some_iff] at h
      obtain ⟨version, hversion, fields, hfields, hread⟩ := h
      rw [Json.str?_eq_some] at hversion
      exact .inl ⟨version, fields, hversion ▸ hfound, hfields, hread⟩
    case h_2 hnone =>
      split at h
      case isTrue hsubject => exact .inr (.inl ⟨hnone, hsubject, h⟩)
      case isFalse hsubject =>
        obtain ⟨d, hd, rfl⟩ := Option.map_eq_some_iff.mp h
        exact .inr (.inr ⟨hnone, by simpa using hsubject, d, hd, rfl⟩)
  | _ => cases h

theorem binding_stable (h : L.binding v = some b) : L.binding b = some b := by
  obtain ⟨given, rfl, ⟨version, fields, -, hfields, hread⟩ | ⟨-, -, hread⟩ | ⟨-, -, d, hread, rfl⟩⟩ :=
    binding_cases h
  · obtain ⟨hlawful, hversion, -⟩ := versioned_lawful hfields
    obtain ⟨out, rfl, hfound⟩ := contract_literal hlawful hread hversion
    have hstable := contract_stable hlawful.nodup hlawful.lawful hread
    simp [binding, hfound, str?, hfields, hstable]
  · have hlawful := taskGrantBinding_lawful (L := L)
    have hmem : contractField "subject" (taskSubject L) ∈ taskGrantBinding L := by
      simp [taskGrantBinding]
    obtain ⟨out, hout, hnone⟩ := contract_outside "schema_version" hread
      (by simp [taskGrantBinding, commonGrantBinding, textField, literalField, intField, floatField,
        contractField, required])
    obtain ⟨out', -, w, hout', hsubject, -⟩ := contract_required hlawful.nodup hread hmem contract_not_null
    obtain rfl : out = out' := by simpa using hout.symm.trans hout'
    subst hout
    have hstable := contract_stable hlawful.nodup hlawful.lawful hread
    simp [binding, hnone, hsubject, hstable]
  · have hlawful := grantBinding_lawful
    obtain ⟨out, rfl, hnone⟩ := contract_outside "schema_version" hread (by decide)
    obtain ⟨out', hout', hsubject⟩ := contract_outside "subject" hread (by decide)
    obtain rfl : out = out' := by simpa using hout'
    obtain ⟨first, hfirst, hsame⟩ := qualificationFirst_object out
    have hstable := contract_stable hlawful.nodup hlawful.lawful hread
    have hreadfirst : readContract grantBinding (.object first) = some (.object out) :=
      (contract_congr hsame).trans hstable
    simp [hfirst, binding, hsame, hnone, hsubject, hreadfirst]

theorem str?_sorted (v : Json) : v.sorted.str? = v.str? := by
  cases v <;> simp [sorted, str?]

theorem binding_blind (v : Json) : L.binding v.sorted = L.binding v := by
  cases v with
  | object given =>
    simp only [sorted, binding, findField_sorted]
    cases hfound : findField given "schema_version" with
    | some schema_version =>
      simp [str?_sorted, Option.bind_eq_bind]
      cases schema_version.str? with
      | none => rfl
      | some version =>
        cases hfields : versioned L version with
        | none => simp [hfields]
        | some fields =>
          obtain ⟨hlawful, -⟩ := versioned_lawful hfields
          simpa [hfields, sorted] using contract_blind hlawful.lawful (.object given)
    | none =>
      have htask := contract_blind (taskGrantBinding_lawful (L := L)).lawful (.object given)
      have hgrant := contract_blind grantBinding_lawful.lawful (.object given)
      simp only [sorted] at htask hgrant
      simp [htask, hgrant]
  | _ => rfl

theorem binding_common {read : Json → Option Json}
    (h : L.binding v = some b) (hf : .required name read ∈ commonGrantBinding)
    (hnull : ∀ u, read u ≠ some .null) : ∃ u w, fieldOf b name = some w ∧ read u = some w := by
  have hcontract : ∀ fields d, LawfulFields fields → .required name read ∈ fields →
      readContract fields v = some d → ∃ u w, fieldOf d name = some w ∧ read u = some w := by
    intro fields d hlawful hmem hread
    obtain ⟨given, u, w, rfl, hfound, hw⟩ := contract_required hlawful.nodup hread hmem hnull
    exact ⟨u, w, hfound, hw⟩
  obtain ⟨given, -, ⟨version, fields, -, hfields, hread⟩ | ⟨-, -, hread⟩ | ⟨-, -, d, hread, rfl⟩⟩ :=
    binding_cases h
  · obtain ⟨hlawful, -, hcommon⟩ := versioned_lawful hfields
    exact hcontract fields b hlawful (hcommon _ hf) hread
  · exact hcontract _ b taskGrantBinding_lawful (by simp [taskGrantBinding, hf]) hread
  · obtain ⟨u, w, hfound, hw⟩ := hcontract _ d grantBinding_lawful (by simp [grantBinding, hf]) hread
    obtain ⟨given, rs, -, -, rfl⟩ := contract_ok hread
    obtain ⟨first, hfirst, hsame⟩ := qualificationFirst_object (written rs)
    refine ⟨u, w, ?_, hw⟩
    simpa [hfirst, fieldOf, hsame] using hfound

theorem binding_maxRequests {v b : Json} (h : L.binding v = some b) :
    ∃ max_requests, maxRequests b = some max_requests ∧ 1 ≤ max_requests ∧ max_requests ≤ 6 := by
  have hf : intField "max_requests" (within 1 6) ∈ commonGrantBinding := by simp [commonGrantBinding]
  obtain ⟨u, w, hfound, hread⟩ := binding_common h hf (readInt_not_null _)
  obtain ⟨n, rfl, hwithin⟩ : ∃ n, w = .int n ∧ within 1 6 n = true := by
    cases u with
    | int n =>
      simp only [readInt] at hread
      split at hread
      case isTrue hwithin => exact ⟨n, (Option.some.inj hread).symm, hwithin⟩
      · cases hread
    | _ => cases hread
  simp only [within, Bool.and_eq_true, decide_eq_true_eq] at hwithin
  exact ⟨n, by simp [maxRequests, hfound, int?], hwithin⟩

theorem fieldOf_sorted (v : Json) (name : String) : fieldOf v.sorted name = (fieldOf v name).map sorted := by
  cases v <;> simp [fieldOf, sorted, findField_sorted]

theorem expiresAt_sorted (v : Json) : expiresAt v.sorted = expiresAt v := by
  simp only [expiresAt, fieldOf_sorted]
  cases fieldOf v "expires_at" with
  | none => rfl
  | some w => cases w <;> simp [sorted, rational?]

theorem maxRequests_sorted (v : Json) : maxRequests v.sorted = maxRequests v := by
  simp only [maxRequests, fieldOf_sorted]
  cases fieldOf v "max_requests" with
  | none => rfl
  | some w => cases w <;> simp [sorted, int?]

end Karajan.GoJournal
