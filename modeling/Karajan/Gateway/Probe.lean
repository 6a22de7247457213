import Karajan.Lib.Check
import Karajan.Lib.Dict
import Karajan.Lib.Json
import Mathlib.Data.List.Infix

/-!
# Reading a model catalog

A catalog is read once, from the host and the path that were registered, with a
credential that is not to come back: where an identifier contains it, a marker
is put in its place. The marker may contain the credential too, or complete it,
and the flag that tells of an echo is also raised for identifiers that are
blank or too long.
-/

namespace Karajan.Gateway

open Check

def MAXIMUM_BODY : Nat := 1048576

def MAXIMUM_MODELS : Nat := 1000

def MAXIMUM_SECRET : Nat := 4096

def REDACTION : String := "[redacted]"

structure Origin where
  (scheme query fragment : String)
  (hostname username password : Option String)

/-- What is taken from the language. An error is its code, or what `urlsplit` says. -/
structure Library where
  (isspace isprintable : Char → Bool)
  urlsplit : String → Except String Origin
  decode : List UInt8 → Option String
  loads : List UInt8 → Option Json

inductive Exchange
  | failed
  | answered (status : Nat) (location : Option String) (body : List UInt8)

/-- Whether a connection can be made, and what a request comes to. -/
structure Upstream where
  connects : Origin → Bool
  get : Origin → String → List (String × String) → Exchange

inductive CatalogState
  | ok
  | redirectRejected
  | unauthorized
  | upstreamError
  | networkError
  | invalidResponse
  | credentialUnavailable
deriving DecidableEq

structure CatalogObservation where
  status : CatalogState
  reason_codes : List String := []
  http_status : Option Nat := none
  model_ids : List String := []
  model_count : Nat := 0
  (requested_origin requested_path : String)
  credential_supplied : Bool := false
  secret_echo_detected : Bool := false
  redirected : Bool := false
  requests_sent : Option Nat := some 0
deriving DecidableEq

variable (L : Library)

-- Credentials

def credential (secret : String) : Bool :=
  1 ≤ secret.length && secret.length ≤ MAXIMUM_SECRET &&
    secret.toList.all fun c => c.toNat < 128 && L.isprintable c && !L.isspace c

def strip (text : String) : String :=
  .ofList (((text.toList.dropWhile L.isspace).reverse.dropWhile L.isspace).reverse)

/-- `LocalFileSecretResolver.resolve` -/
def resolve (sources : Dict (String × String) String) (read_bytes : String → Option (List UInt8))
    (project_id secret_ref : String) : Except String String := do
  let path ← need (sources.get? (project_id, secret_ref)) "GATEWAY_SECRET_REF_UNCONFIGURED"
  let raw ← need (read_bytes path) "GATEWAY_SECRET_MATERIAL_UNAVAILABLE"
  let text ← need (L.decode raw) "GATEWAY_SECRET_MATERIAL_INVALID"
  ensure (credential L (strip L text)) "GATEWAY_SECRET_MATERIAL_INVALID"
  return strip L text

theorem resolve_credential (h : resolve L sources read_bytes project_id secret_ref = .ok secret) :
    credential L secret = true := by
  simp only [resolve, bind_ok, need_ok, ensure_ok, pure_ok] at h
  obtain ⟨_, -, _, -, text, -, _, hcredential, rfl⟩ := h
  exact hcredential

-- Redaction

/-- `secret in text` -/
def occurs (secret text : String) : Bool := secret.toList <:+: text.toList

def replaced (secret marker : List Char) : Nat → List Char → List Char
  | _, [] => []
  | skip + 1, _ :: rest => replaced secret marker skip rest
  | 0, c :: rest =>
    if secret <+: c :: rest then marker ++ replaced secret marker (secret.length - 1) rest
    else c :: replaced secret marker 0 rest

/-- `text.replace(secret, marker)`, for a secret that is not empty: the occurrences are taken from the
left, and none begins within another. -/
def replace (text secret marker : String) : String := .ofList (replaced secret.toList marker.toList 0 text.toList)

def shown (text : String) : Bool := 1 ≤ text.length && text.length ≤ 256 && !text.toList.any L.isspace

def clean : List String → String → Bool → String × Bool
  | [], cleaned, leaked => (cleaned, leaked)
  | secret :: rest, cleaned, leaked =>
    if secret ≠ "" && occurs secret cleaned then clean rest (replace cleaned secret REDACTION) true
    else clean rest cleaned leaked

def redactFrom (secrets : List String) : List String → List String → Bool → List String × Bool
  | [], kept, leaked => (kept, leaked)
  | value :: rest, kept, leaked =>
    let (cleaned, leaked) := clean secrets value leaked
    if !shown L cleaned then redactFrom secrets rest kept true
    else redactFrom secrets rest (if cleaned ∈ kept then kept else kept ++ [cleaned]) leaked

def redact (values secrets : List String) : List String × Bool := redactFrom L secrets values [] false

-- The catalog

def readCatalog (body : List UInt8) : List String × Option String :=
  if MAXIMUM_BODY < (body.take (MAXIMUM_BODY + 1)).length then ([], some "CATALOG_BODY_TOO_LARGE")
  else match L.loads body with
  | none => ([], some "CATALOG_BODY_INVALID")
  | some document =>
    match document.object?.bind fun fields => (field fields "data").list? with
    | none => ([], some "CATALOG_SHAPE_INVALID")
    | some data =>
      if MAXIMUM_MODELS < data.length then ([], some "CATALOG_TOO_MANY_MODELS")
      else match data.mapM fun entry => entry.object?.bind fun fields => (field fields "id").str? with
      | none => ([], some "CATALOG_ENTRY_INVALID")
      | some identifiers => (identifiers, none)

def Origin.registrable (parsed : Origin) : Bool :=
  parsed.scheme ∈ ["http", "https"] && parsed.hostname.any (· ≠ "") && parsed.username.all (· = "") &&
    parsed.password.all (· = "") && parsed.query = "" && parsed.fragment = ""

def pathRegistrable (catalog_path : String) : Bool :=
  catalog_path.toList.head? = some '/' && !List.isPrefixOf ['/', '/'] catalog_path.toList &&
    !catalog_path.toList.any fun c => c = '?' || c = '#' || L.isspace c

def headers (secret : Option String) : List (String × String) :=
  [("Accept", "application/json"), ("User-Agent", "karajan-gateway-catalog-probe/1")] ++
    (secret.map fun secret => ("Authorization", "Bearer " ++ secret)).toList

def probeCatalog (upstream : Upstream) (origin catalog_path : String) (secret : Option String) :
    Except String CatalogObservation := do
  let parsed ← L.urlsplit origin
  if !parsed.registrable || !pathRegistrable L catalog_path then
    return {
      status := .invalidResponse, reason_codes := ["GATEWAY_ORIGIN_INVALID"]
      requested_origin := origin, requested_path := catalog_path }
  else
    ensure (secret.all (·.toList.all (·.toNat < 128))) "GATEWAY_SECRET_MATERIAL_INVALID"
    let asked (status : CatalogState) (reason_codes : List String) : CatalogObservation := {
      status, reason_codes
      requested_origin := origin, requested_path := catalog_path
      credential_supplied := secret.isSome }
    if !upstream.connects parsed then return asked .invalidResponse ["GATEWAY_ORIGIN_NOT_CONNECTABLE"]
    else match upstream.get parsed catalog_path (headers secret) with
    | .failed => return { asked .networkError ["CATALOG_NETWORK_ERROR"] with requests_sent := some 1 }
    | .answered status location body =>
      let answered := { asked .ok [] with http_status := some status, requests_sent := some 1 }
      if 300 ≤ status && status < 400 then
        return { answered with
          status := .redirectRejected, reason_codes := ["CATALOG_REDIRECT_REJECTED"], redirected := true }
      else if status = 401 || status = 403 then
        return { answered with status := .unauthorized, reason_codes := ["CATALOG_UNAUTHORIZED"] }
      else if status ≠ 200 then
        return { answered with status := .upstreamError, reason_codes := ["CATALOG_UPSTREAM_ERROR"] }
      else
        let (identifiers, problem) := readCatalog L body
        return { answered with
          status := if problem.isNone then .ok else .invalidResponse
          reason_codes := problem.toList
          model_ids := identifiers
          model_count := identifiers.length
          redirected := location.isSome }

def observedCatalog (upstream : Upstream) (origin catalog_path project_id : String) (secret_ref : Option String)
    (resolver : Option (String → String → Except String String)) : Except String CatalogObservation :=
  let unavailable (code : String) : CatalogObservation := {
    status := .credentialUnavailable, reason_codes := [code]
    requested_origin := origin, requested_path := catalog_path }
  match secret_ref, resolver with
  | none, _ => probeCatalog L upstream origin catalog_path none
  | some _, none => return unavailable "GATEWAY_SECRET_REF_UNCONFIGURED"
  | some secret_ref, some resolver =>
    match resolver project_id secret_ref with
    | .error code => return unavailable code
    | .ok secret => do
      let observation ← probeCatalog L upstream origin catalog_path (some secret)
      let (model_ids, leaked) := redact L observation.model_ids [secret]
      if !leaked then return observation
      else return { observation with
        status := .invalidResponse
        reason_codes := ["CATALOG_CREDENTIAL_ECHO_REJECTED"]
        model_ids
        model_count := model_ids.length
        secret_echo_detected := true }

-- What an observation discloses

/-- What is promised of an observation, by what was listed: no identifier contains the credential, the
flag tells of an echo, and without one nothing is changed. -/
structure Discreet (secret : String) (listed observed : CatalogObservation) : Prop where
  hidden : ∀ id ∈ observed.model_ids, occurs secret id = false
  echo : observed.secret_echo_detected = true ↔ ∃ id ∈ listed.model_ids, occurs secret id = true
  same : (∀ id ∈ listed.model_ids, occurs secret id = false) → observed = listed

/-- Either nothing is echoed and every identifier can be shown, or none that can be shown contains the
credential again once the marker is in its place. -/
def Redactable (secret : String) (ids : List String) : Prop :=
  (∀ id ∈ ids, occurs secret id = false ∧ shown L id = true) ∨
  (∃ id ∈ ids, occurs secret id = true) ∧ ∀ id ∈ ids, occurs secret id = true →
    shown L (replace id secret REDACTION) = true → occurs secret (replace id secret REDACTION) = false

variable {L}

def cleaned (secret id : String) : String := if occurs secret id then replace id secret REDACTION else id

theorem clean_one (hsecret : secret ≠ "") :
    clean [secret] value leaked = (cleaned secret value, leaked || occurs secret value) := by
  cases h : occurs secret value <;> simp [clean, cleaned, h, hsecret]

theorem mem_redactFrom (hsecret : secret ≠ "") : x ∈ (redactFrom L [secret] ids kept leaked).1 ↔
    x ∈ kept ∨ ∃ id ∈ ids, shown L (cleaned secret id) = true ∧ cleaned secret id = x := by
  induction ids generalizing kept leaked with
  | nil => simp [redactFrom]
  | cons id rest ih =>
    simp only [redactFrom, clean_one hsecret, List.exists_mem_cons_iff]
    cases hshown : shown L (cleaned secret id) with
    | false => simp [ih]
    | true =>
      simp only [Bool.not_true, Bool.false_eq_true, if_false, ih]
      grind

theorem redactFrom_leaked (hsecret : secret ≠ "") : (redactFrom L [secret] ids kept leaked).2 = true ↔
    leaked = true ∨ ∃ id ∈ ids, occurs secret id = true ∨ shown L (cleaned secret id) = false := by
  induction ids generalizing kept leaked with
  | nil => simp [redactFrom]
  | cons id rest ih =>
    simp only [redactFrom, clean_one hsecret, List.exists_mem_cons_iff]
    cases hshown : shown L (cleaned secret id) with
    | false => simp [ih]
    | true => simp [ih, or_assoc]

theorem probeCatalog_echo (h : probeCatalog L upstream origin catalog_path secret = .ok listed) :
    listed.secret_echo_detected = false := by
  simp only [probeCatalog, bind_ok] at h
  obtain ⟨parsed, -, h⟩ := h
  split at h
  · cases h; rfl
  · simp only [bind_ok] at h
    obtain ⟨_, -, h⟩ := h
    split at h
    · cases h; rfl
    · split at h
      · cases h; rfl
      · split_ifs at h <;> cases h <;> rfl

/-- An observation keeps what is promised of it exactly when what was listed can be redacted. -/
theorem observation_discreet (hresolved : resolver project_id secret_ref = .ok secret)
    (hcredential : credential L secret = true)
    (hlisted : probeCatalog L upstream origin catalog_path (some secret) = .ok listed) :
    ∃ observed, observedCatalog L upstream origin catalog_path project_id (some secret_ref) (some resolver) =
        .ok observed ∧ (Discreet secret listed observed ↔ Redactable L secret listed.model_ids) := by
  have hsecret : secret ≠ "" := by
    rintro rfl
    simp [credential] at hcredential
  have hecho := probeCatalog_echo hlisted
  have hmem := fun x => @mem_redactFrom L secret listed.model_ids [] false x hsecret
  have hleaked := @redactFrom_leaked L secret listed.model_ids [] false hsecret
  simp only [observedCatalog, hresolved, hlisted, ok_bind, redact]
  by_cases hflag : (redactFrom L [secret] listed.model_ids [] false).2 = true
  case neg =>
    have hall : ∀ id ∈ listed.model_ids, occurs secret id = false ∧ shown L id = true := by grind [cleaned]
    simp only [hflag, Bool.not_false, if_true]
    exact ⟨listed, rfl, fun _ => .inl hall, fun _ => ⟨fun id hid => (hall id hid).1, by grind, fun _ => rfl⟩⟩
  case pos =>
    simp only [hflag, Bool.not_true, Bool.false_eq_true, if_false]
    refine ⟨_, rfl, fun h => ?_, fun h => ?_⟩
    · obtain ⟨id, hid, hocc⟩ := h.echo.mp rfl
      refine .inr ⟨⟨id, hid, hocc⟩, fun id hid hocc hshown => h.hidden _ ((hmem _).mpr (.inr ⟨id, hid, ?_⟩))⟩
      simp [cleaned, hocc, hshown]
    · obtain hall | ⟨hany, hclean⟩ := h
      · grind [cleaned]
      · refine ⟨fun x hx => ?_, ⟨fun _ => hany, fun _ => rfl⟩, fun hnone => ?_⟩
        · obtain hx | ⟨id, hid, hshown, rfl⟩ := (hmem x).mp hx <;> grind [cleaned]
        · grind

namespace Sample

def body (id : String) : List UInt8 :=
  ("\x7b\"data\":[\x7b\"id\":\"" ++ id ++ "\"\x7d]\x7d").toList.map (·.toNat.toUInt8)

def library (id : String) : Library where
  isspace c := c = ' '
  isprintable c := 32 ≤ c.toNat
  urlsplit _ := .ok ⟨"http", "", "", some "h", none, none⟩
  decode bytes := some (.ofList (bytes.map (Char.ofNat ·.toNat)))
  loads bytes := if bytes = body id then some (.object [("data", .list [.object [("id", .str id)]])]) else none

def upstream (id : String) : Upstream := ⟨fun _ => true, fun _ _ _ => .answered 200 none (body id)⟩

def resolver (secret : String) (_ _ : String) : Except String String := .ok secret

def listed (id : String) : CatalogObservation :=
  ⟨.ok, [], some 200, [id], 1, "http://h", "/m", true, false, false, some 1⟩

def observed (id secret : String) : Except String CatalogObservation :=
  observedCatalog (library id) (upstream id) "http://h" "/m" "p" (some "s") (some (resolver secret))

end Sample

open Sample

/-- The marker contains the credential. -/
theorem observation_echoes : credential (library "a") "a" = true ∧
    probeCatalog (library "a") (upstream "a") "http://h" "/m" (some "a") = .ok (listed "a") ∧
    ∃ o, observed "a" "a" = .ok o ∧ ¬ Discreet "a" (listed "a") o := by
  refine ⟨by decide +kernel, by decide +kernel, ⟨.invalidResponse, ["CATALOG_CREDENTIAL_ECHO_REJECTED"], some 200,
    ["[redacted]"], 1, "http://h", "/m", true, true, false, some 1⟩, by decide +kernel, fun h => ?_⟩
  exact absurd (h.hidden "[redacted]" (by simp)) (by decide +kernel)

theorem observation_discreet_plain : ∃ o, observed "m" "k" = .ok o ∧ Discreet "k" (listed "m") o := by
  obtain ⟨o, ho, hdiscreet⟩ := observation_discreet (show resolver "k" "p" "s" = .ok "k" from rfl)
    (show credential (library "m") "k" = true by decide +kernel)
    (show probeCatalog _ (upstream "m") "http://h" "/m" _ = .ok (listed "m") by decide +kernel)
  exact ⟨o, ho, hdiscreet.mpr (.inl (by decide +kernel))⟩

end Karajan.Gateway
