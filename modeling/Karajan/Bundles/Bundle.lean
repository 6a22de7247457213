import Mathlib.Algebra.Order.Ring.Nat
import Karajan.Compiler.Passes

/-!
# The bundle layout

The accepted paths of a bundle and the rules they are validated by before they
are joined to a directory. What the platform normalises, prints, encodes and
parses is a parameter.
-/

namespace Karajan.Bundles

open Check
open Compiler (Diagnostic WorkflowError located)

abbrev Bytes := List UInt8

structure Library extends Compiler.Library where
  nfc : String → String
  isprintable : Char → Bool
  encode : String → Option Bytes
  decode : Bytes → Option String
  byteDigest : Bytes → String
  /-- The one canonical spelling of a value; None where it has none. -/
  canonicalJson : Yaml → Option String
  parseJson : String → Option Yaml
  loadYaml : (content : String) → (file : String) → Except WorkflowError Yaml
  /-- None for a document that cannot be represented. -/
  safeDump : Yaml → Option String
  identifier : String → Bool

inductive Failure
  | refused (error : WorkflowError) (current_revision : Option Nat)
  | exception
  /-- The process ended, or its transaction could not be committed. -/
  | interrupted

abbrev Chk := Except Failure

def refuse (code : String) : Failure := .refused ⟨code, [], []⟩ none

def refuseAt (code location detail : String) : Failure :=
  .refused ⟨code, [located code location detail none], []⟩ none

def refuseEach (code : String) : List Diagnostic → Chk Unit
  | [] => .ok ()
  | diagnostics => .error (.refused ⟨code, diagnostics, []⟩ none)

def compiling : Compiler.Chk α → Chk α
  | .ok a => .ok a
  | .error (.refused error) => .error (.refused error none)
  | .error .typeError => .error .exception

variable (L : Library)

def contentDigest (value : Yaml) : Chk String :=
  need (L.contentDigest value) (refuse "WORKFLOW_CONTENT_NOT_SERIALIZABLE")

-- Paths

def manifestPath : String := "manifest.json"

def workflowPath : String := "workflow.yaml"

def rolesPrefix : String := "roles/"

def templatesPrefix : String := "templates/"

def bundleIdLocation : String := "workflow.yaml#/bundle_id"

def requiredPaths : List String := [manifestPath, workflowPath]

def maximumFiles : Nat := 256

def maximumPathLength : Nat := 200

def maximumSegmentLength : Nat := 96

def reservedStems : List String :=
  ["con", "prn", "aux", "nul"] ++ (List.range 10).map (fun i => s!"com{i}") ++
    (List.range 10).map (fun i => s!"lpt{i}") ++ ["conin$", "conout$"]

def forbiddenCharacters : List Char := ['<', '>', ':', '"', '|', '?', '*']

def allowedExtensions : List String := ["yaml", "yml", "txt", "md"]

def shownPath (relative : String) : String := takeText 64 (String.ofList (relative.toList.map fun c =>
    if L.isprintable c && !(['\r', '\n', '\t'].contains c) then c else '?'))

def pathError (code relative : String) : Failure :=
  refuseAt code "workflow.yaml#/files" s!"{code}: {shownPath L relative}"

def forwardSlashes (text : String) : String :=
  String.ofList (text.toList.map fun c => if c = '\\' then '/' else c)

def stripDots (segment : String) : String :=
  String.ofList (segment.toList.reverse.dropWhile fun c => c = '.' || c = ' ').reverse

def normalizedKey (relative : String) : String :=
  "/".intercalate ((splitText '/' (forwardSlashes (L.casefold (L.nfc relative)))).map stripDots)

def stem (segment : String) : String := L.casefold (String.ofList (segment.toList.takeWhile (· ≠ '.')))

def checkSegment (value segment : String) : Chk Unit := do
  ensure (segment.length ≤ maximumSegmentLength) (pathError L "WORKFLOW_PATH_INVALID" value)
  ensure (segment = stripDots segment) (pathError L "WORKFLOW_PATH_AMBIGUOUS" value)
  ensure (!reservedStems.contains (stem L segment) && !Compiler.blank L.toLibrary (stem L segment))
    (pathError L "WORKFLOW_PATH_AMBIGUOUS" value)

def validatePath (value : Yaml) : Chk String := do
  let invalid := pathError L "WORKFLOW_PATH_INVALID" (takeText 80 (L.str value))
  let text ← need value.text? invalid
  ensure (1 ≤ text.length && text.length ≤ maximumPathLength) invalid
  ensure (!startsWith text "/" && !startsWith text "\\" && !(text.toList[1]? = some ':'))
    (pathError L "WORKFLOW_PATH_NOT_RELATIVE" text)
  ensure (text = L.nfc text) (pathError L "WORKFLOW_PATH_NOT_NORMALIZED" text)
  ensure (text.toList.all fun c => ' '.toNat ≤ c.toNat && c.toNat ≠ 127)
    (pathError L "WORKFLOW_PATH_INVALID" text)
  ensure (text.toList.all fun c => !forbiddenCharacters.contains c)
    (pathError L "WORKFLOW_PATH_AMBIGUOUS" text)
  let segments := splitText '/' (forwardSlashes text)
  ensure (segments.all fun segment => !(["", ".", ".."].contains segment))
    (pathError L "WORKFLOW_PATH_INVALID" text)
  let _ ← each (checkSegment L text) segments
  return forwardSlashes text

def extension (name : String) : String :=
  match rpartition '.' name with
  | some (_, ending) => L.casefold ending
  | none => ""

def requireAllowed (relative : String) : Chk Unit :=
  if requiredPaths.contains relative then .ok ()
  else
    match [rolesPrefix, templatesPrefix].find? fun start =>
      startsWith relative start && relative.toList.count '/' = 1 with
    | none => .error (pathError L "WORKFLOW_PATH_NOT_ALLOWED" relative)
    | some start =>
      let name := String.ofList (relative.toList.drop start.toList.length)
      ensure (allowedExtensions.contains (extension L name))
        (pathError L "WORKFLOW_PATH_NOT_ALLOWED" name)

def claimPath (seen : Dict String String) (relative : String) : Chk (Dict String String) :=
  let key := normalizedKey L relative
  match seen.get? key with
  | none => .ok (seen.put key relative)
  | some previous =>
    .error (refuseAt "WORKFLOW_PATH_DUPLICATE" relative
      (if previous ≠ relative then s!"collides with {previous} after normalization"
        else "declared more than once"))

end Karajan.Bundles

-- Bundles

namespace Karajan.Bundles

open Check
open Compiler (Diagnostic WorkflowError located ofMap CompiledWorkflow)
open Scheduling (sorted)
variable (L : Library)

def maximumFileBytes : Nat := 1048576

def maximumTotalBytes : Nat := 8388608

abbrev Files := Dict String Bytes

structure BundleFile where
  path : String
  raw : Bytes
  digest : String

structure Bundle where
  bundle_id : String
  revision : Nat
  (project_id conversation_id : String)
  manifest : Mapping
  files : List BundleFile
  (bundle_digest manifest_file_digest : String)

inductive Node
  | file (raw : Bytes)
  | link
  | other

abbrev Tree := Dict String Node

def manifestSchemaVersion : String := "karajan.workflow-bundle.v1"

def manifestFields : List String :=
  ["schema_version", "bundle_id", "revision", "files", "references", "delivery_kind", "bundle_digest"]

def referenceFields : List String :=
  ["workflow_id", "workflow_revision", "input_contract_ref", "roles", "execution_kinds", "contracts"]

def entryFields : List String := ["path", "byte_digest", "byte_length"]

def hasFields (m : Mapping) (names : List String) : Bool :=
  (m.all fun e => (names.map Key.text).contains e.1) &&
    names.all fun name => (m.find name).isSome

def manifestError (code pointer detail : String) : Failure := refuseAt code s!"{manifestPath}{pointer}" detail

-- The manifest

def bundleDigest (manifest : Mapping) : Chk String :=
  contentDigest L (.map (manifest.filter fun e => e.1 ≠ .text "bundle_digest"))

def fileEntry (path digest : String) (length : Nat) : Yaml :=
  ofMap [("path", .text path), ("byte_digest", .text digest), ("byte_length", .int length)]

def manifestDocument (bundle_id : String) (revision : Nat) (files : Files) (references : Yaml)
    (delivery_kind : String) : Chk Mapping := do
  let listed := ((sorted files.keys).filter (· ≠ manifestPath)).filterMap fun path =>
    (files.get? path).map fun raw => fileEntry path (L.byteDigest raw) raw.length
  let body : Mapping :=
    [(.text "schema_version", .text manifestSchemaVersion), (.text "bundle_id", .text bundle_id),
      (.text "revision", .int revision), (.text "delivery_kind", .text delivery_kind),
      (.text "files", .list listed), (.text "references", references)]
  let digest ← bundleDigest L body
  return body ++ [(.text "bundle_digest", .text digest)]

def renderManifest (manifest : Mapping) : Chk Bytes := do
  let spelled ← need (L.canonicalJson (.map manifest)) (refuse "WORKFLOW_CONTENT_NOT_SERIALIZABLE")
  need (L.encode (spelled ++ "\n")) (refuse "WORKFLOW_CONTENT_NOT_SERIALIZABLE")

def declaredEntry (entry : Yaml) : Chk (Mapping × Yaml) := do
  let refusal := manifestError "WORKFLOW_MANIFEST_INVALID" "#/files"
    "each file entry declares path, byte_digest and byte_length"
  let entry ← need entry.map? refusal
  ensure (hasFields entry entryFields) refusal
  return (entry, entry.get "path")

structure Inventory where
  recorded : Dict String Mapping
  seen : Dict String String

def declareFile (inventory : Inventory) (entry : Yaml) : Chk Inventory := do
  let (entry, path) ← declaredEntry entry
  let relative ← validatePath L path
  requireAllowed L relative
  ensure (relative ≠ manifestPath) (manifestError "WORKFLOW_MANIFEST_SELF_REFERENCE" ""
    "the manifest does not inventory its own bytes")
  ensure (!inventory.recorded.contains relative)
    (refuseAt "WORKFLOW_PATH_DUPLICATE" relative "declared twice in the manifest")
  let seen ← claimPath L inventory.seen relative
  let pointer := s!"#/files/id={relative}"
  ensure ((entry.get "byte_digest").text?.any fun digest => digest.length = 64)
    (manifestError "WORKFLOW_MANIFEST_INVALID" pointer "byte_digest is not a sha256 digest")
  ensure ((entry.get "byte_length").int?.any fun length => 0 ≤ length)
    (manifestError "WORKFLOW_MANIFEST_INVALID" pointer "byte_length is not a length")
  return ⟨inventory.recorded.put relative entry, seen⟩

def declaredInventory (manifest : Mapping) : Chk (Dict String Mapping) := do
  let entries ← need (manifest.get "files").list? .exception
  let inventory ← entries.foldlM (declareFile L) ⟨.empty, .empty⟩
  ensure (inventory.recorded.contains workflowPath)
    (refuseAt "WORKFLOW_FILE_MISSING" workflowPath "a required file is not declared")
  return inventory.recorded

def describes (entry : Mapping) (raw : Bytes) : Bool :=
  (entry.get "byte_digest").text? = some (L.byteDigest raw) &&
    (entry.get "byte_length").int? = some raw.length

def adoptManifest (manifest : Mapping) (bundle_id : String) (revision : Nat) (files : Files)
    (delivery_kind : String) : Chk Unit := do
  ensure ((manifest.get "bundle_id").text? = some bundle_id &&
      (manifest.get "revision").int? = some (revision : Int))
    (manifestError "WORKFLOW_BUNDLE_IDENTITY_MISMATCH" ""
      "the manifest does not describe the requested revision")
  ensure ((manifest.get "delivery_kind").text? = some delivery_kind)
    (manifestError "WORKFLOW_DELIVERY_KIND_INVALID" "#/delivery_kind"
      "the manifest and the request disagree on the delivery kind")
  let declared ← declaredInventory L manifest
  let supplied := files.filter fun path _ => path ≠ manifestPath
  ensure (declared.keys.all supplied.contains && supplied.keys.all declared.contains)
    (manifestError "WORKFLOW_FILE_INVENTORY_MISMATCH" ""
      "the manifest inventory does not match the supplied files")
  let _ ← each (fun (path, entry) =>
    ensure ((supplied.get? path).any (describes L entry))
      (refuseAt "WORKFLOW_FILE_DIGEST_MISMATCH" path
        "a declared digest does not describe the supplied bytes")) declared.entries
  let digest ← bundleDigest L manifest
  ensure ((manifest.get "bundle_digest").text? = some digest)
    (manifestError "WORKFLOW_BUNDLE_DIGEST_MISMATCH" "#/bundle_digest"
      "the recorded digest does not describe this manifest")

def checkDigest (document : Mapping) : Chk Unit :=
  match document.get "bundle_digest" with
  | .null => .ok ()
  | declared => do
    let digest ← bundleDigest L document
    ensure (declared.text? = some digest)
      (manifestError "WORKFLOW_BUNDLE_DIGEST_MISMATCH" "#/bundle_digest"
        "the recorded digest does not describe this manifest")

def deliveryKinds : List String := ["report", "patch", "pr"]

def validateManifest (document : Yaml) : Chk Mapping := do
  let document ← need document.map?
    (manifestError "WORKFLOW_MANIFEST_INVALID" "" "manifest must be an object")
  let unknown := sorted ((document.filterMap fun e => e.1.text?).filter fun name =>
    !manifestFields.contains name)
  refuseEach "WORKFLOW_MANIFEST_INVALID" (unknown.map fun name =>
    located "WORKFLOW_MANIFEST_INVALID" s!"{manifestPath}#/id={name}" "unknown manifest field" none)
  let missing := (sorted ["schema_version", "bundle_id", "revision", "files", "references"]).filter
    fun name => (document.find name).isNone
  refuseEach "WORKFLOW_MANIFEST_INCOMPLETE" (missing.map fun name =>
    located "WORKFLOW_MANIFEST_INCOMPLETE" manifestPath s!"missing field {name}" none)
  ensure ((document.get "schema_version").text? = some manifestSchemaVersion)
    (manifestError "WORKFLOW_MANIFEST_SCHEMA_UNSUPPORTED" "#/schema_version"
      "unsupported manifest schema version")
  ensure ((document.get "revision").int?.any fun revision => 1 ≤ revision && revision ≤ 1000000)
    (manifestError "WORKFLOW_MANIFEST_INVALID" "#/revision" "invalid revision")
  let _ ← validatePath L (document.get "bundle_id")
  let undeclared := manifestError "WORKFLOW_MANIFEST_INVALID" "#/delivery_kind"
    "declared delivery kind is invalid"
  ensure (document.get "delivery_kind").hashable .exception
  ensure ((document.get "delivery_kind").text?.any deliveryKinds.contains) undeclared
  ensure ((document.get "files").list?.any fun files => !files.isEmpty)
    (manifestError "WORKFLOW_MANIFEST_INCOMPLETE" "#/files" "files are required")
  ensure ((document.get "references").map?.any fun references => hasFields references referenceFields)
    (manifestError "WORKFLOW_MANIFEST_INVALID" "#/references"
      "references must declare exactly the known keys")
  checkDigest L document
  return document

-- Reading a directory

/-- Every file that is there; a link or anything else is refused. -/
def observedInventory (tree : Tree) : Chk (List String) := each (fun (relative, node) =>
    match node with
    | .file _ => .ok relative
    | .link => .error (refuseAt "WORKFLOW_PATH_LINK_ESCAPE" relative
        "a verified revision contains no links")
    | .other => .error (refuse "WORKFLOW_UNDECLARED_ENTRY")) tree.entries

def throughLink (tree : Tree) (relative : String) : Bool := tree.entries.any fun (path, node) =>
    match node with
    | .link => path = relative || startsWith relative (path ++ "/")
    | _ => false

def readBytes (tree : Tree) (relative : String) : Chk Bytes := do
  ensure (!throughLink tree relative) (pathError L "WORKFLOW_PATH_LINK_ESCAPE" relative)
  match tree.get? relative with
  | some (.file raw) =>
    ensure (raw.length ≤ maximumFileBytes) (refuse "WORKFLOW_CONTENT_TOO_LARGE")
    return raw
  | _ => .error (pathError L "WORKFLOW_FILE_MISSING" relative)

def parseManifest (raw : Bytes) : Chk Yaml :=
  need ((L.decode raw).bind L.parseJson)
    (manifestError "WORKFLOW_MANIFEST_INVALID" "" "manifest is not JSON")

/-- One declared file, its bytes counted against the bound of the whole bundle. -/
def readFile (tree : Tree) (recorded : Dict String Mapping) (read : List BundleFile × Nat)
    (relative : String) : Chk (List BundleFile × Nat) := do
  let raw ← readBytes L tree relative
  let total := read.2 + raw.length
  ensure (total ≤ maximumTotalBytes) (refuse "WORKFLOW_CONTENT_TOO_LARGE")
  ensure ((recorded.get? relative).any fun entry => describes L entry raw)
    (refuseAt "WORKFLOW_FILE_DIGEST_MISMATCH" relative
      "stored bytes do not match the published digest")
  return (read.1 ++ [⟨relative, raw, L.byteDigest raw⟩], total)

/-- A materialised directory, verified against its own manifest. -/
def readDirectory (tree : Tree) (bundle_id : String) (revision : Nat)
    (project_id conversation_id : String) : Chk Bundle := do
  let manifest_raw ← readBytes L tree manifestPath
  let document ← parseManifest L manifest_raw
  let manifest ← validateManifest L document
  let recorded ← declaredInventory L manifest
  let observed ← observedInventory tree
  let undeclared := sorted (observed.filter fun path =>
    !recorded.contains path && path ≠ manifestPath)
  refuseEach "WORKFLOW_UNDECLARED_FILE" ((undeclared.take 16).map fun name =>
    located "WORKFLOW_UNDECLARED_FILE" name
      "the verified revision contains a file its manifest does not inventory" none)
  let (files, _) ← (sorted recorded.keys).foldlM (readFile L tree recorded) ([], 0)
  let digest ← bundleDigest L manifest
  ensure ((manifest.get "bundle_id").text? = some bundle_id &&
      (manifest.get "revision").int? = some (revision : Int))
    (manifestError "WORKFLOW_BUNDLE_IDENTITY_MISMATCH" ""
      "the manifest does not describe the requested revision")
  return { bundle_id, revision, project_id, conversation_id, manifest, files
           bundle_digest := digest
           manifest_file_digest := L.byteDigest manifest_raw }

-- Compiling a bundle

def loadDocument (path : String) (raw : Bytes) : Chk (String × Yaml) := do
  let content ← need (L.decode raw) .exception
  match L.loadYaml content path with
  | .ok document => return (path, document)
  | .error error => .error (.refused error none)

def roleFiles (documents : List (String × Yaml)) : List (String × Yaml) :=
  documents.filter fun (path, _) => startsWith path rolesPrefix

def roleDigest (roles : List (String × Yaml)) : Chk String := do
  let digests ← each (fun (path, document) => do
    let digest ← contentDigest L document
    return (path, Yaml.text digest)) roles
  contentDigest L (ofMap (Compiler.sortedItems digests))

def templateDigests (files : List BundleFile) : Dict String String :=
  .ofList ((files.filter fun file => startsWith file.path templatesPrefix).map fun file =>
    (file.path, file.digest))

def compileBundle (bundle : Bundle) (binding_index : Dict String Mapping) : Chk CompiledWorkflow := do
  let documents ← each (fun file => loadDocument L file.path file.raw) bundle.files
  let absent := refuseAt "WORKFLOW_FILE_MISSING" workflowPath "not declared"
  let workflow ← need (Dict.lookup workflowPath documents) absent
  ensure (!workflow.isNull) absent
  let declared ← need workflow.map?
    (refuseAt "WORKFLOW_SCHEMA_INVALID" workflowPath "expected a mapping")
  ensure ((Mapping.getD declared "schema_version" (.text Compiler.schemaVersion)).text? =
      some Compiler.schemaVersion)
    (refuseAt "WORKFLOW_SCHEMA_UNSUPPORTED" s!"{workflowPath}#/schema_version"
      "unsupported workflow schema version")
  let roles := roleFiles documents
  let _ ← each (fun (path, document) =>
    need document.map? (refuseAt "WORKFLOW_SCHEMA_INVALID" path "role file must be a mapping")) roles
  let role_digest ← roleDigest L roles
  compiling (Compiler.compileWorkflow L.toLibrary
    { manifest := .map bundle.manifest
      roles
      bundle_digest := bundle.bundle_digest
      role_digest
      template_digests := templateDigests bundle.files
      binding_index } workflow)

def compiledDigest (compiled : CompiledWorkflow) : Chk String := contentDigest L compiled.asDocument

-- Supplied files

def encodeContent (content relative : String) : Chk Bytes := do
  let raw ← need (L.encode content)
    (refuseAt "WORKFLOW_CONTENT_NOT_ENCODABLE" relative "content is not storable utf-8 text")
  ensure (raw.length ≤ maximumFileBytes) (refuse "WORKFLOW_CONTENT_TOO_LARGE")
  return raw

def prepareFile (prepared : Files × Dict String String) (entry : Yaml) : Chk (Files × Dict String String) := do
  let shape := refuseAt "WORKFLOW_SCHEMA_INVALID" workflowPath
    "each file declares exactly path and content"
  let entry ← need entry.map? shape
  ensure (hasFields entry ["path", "content"]) shape
  let relative ← validatePath L (entry.get "path")
  requireAllowed L relative
  ensure (relative ≠ manifestPath) (manifestError "WORKFLOW_MANIFEST_NOT_SUPPLIED" ""
    "the controller writes the manifest it verified")
  let seen ← claimPath L prepared.2 relative
  let content ← need (entry.get "content").text?
    (refuseAt "WORKFLOW_SCHEMA_INVALID" relative "content must be text")
  let raw ← encodeContent L content relative
  return (prepared.1.put relative raw, seen)

/-- The supplied paths and bytes, validated before anything is written. -/
def prepareFiles (declared : List Yaml) : Chk Files := do
  ensure (!declared.isEmpty)
    (refuseAt "WORKFLOW_FILE_MISSING" workflowPath "bundle content is required")
  ensure (declared.length ≤ maximumFiles) (refuse "WORKFLOW_CONTENT_TOO_LARGE")
  let (files, _) ← declared.foldlM (prepareFile L) (.empty, .empty)
  ensure (files.contains workflowPath)
    (refuseAt "WORKFLOW_FILE_MISSING" workflowPath "a required file is not supplied")
  ensure ((files.values.map List.length).sum ≤ maximumTotalBytes)
    (refuse "WORKFLOW_CONTENT_TOO_LARGE")
  return files

end Karajan.Bundles
