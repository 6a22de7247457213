import Karajan.Lib.Runs
import Karajan.Scheduling.Claims

/-!
# The store as a system

Every entry point is one transaction that commits or leaves the database as it
was, so the store takes one request at a time. The exception is a refused
decision: its receipt is written by a second transaction, and between the two
the refusal is in flight while other requests are served.
-/

namespace Karajan.Scheduling

open Check
open Json (ofTexts)

-- Runs and resources

/-- The identifier of the user authorisation a run is created with. -/
def initialAuthorizationId : String := "run-initial-authorization"

/-- The closing transaction of a run's creation. What was frozen from the
acquired deployment is `frozen`; `current` says that the slot still names it. -/
def createRun (P : Platform) (db : Db) (key : RunKey) (principal command_key digest : String)
    (current : Bool) (frozen : RunRecord) : Chk (RunRecord × Db) := do
  owned P db key.project_id
  match db.workflow_run_keys.get? (principal, command_key) with
  | some again => do
    ensure (again.digest = digest) (plain .idempotencyConflict)
    let record ← runRow P (db.runs ⟨key.project_id, again.record⟩)
    return (record, db)
  | none => do
    ensure current (plain .runSourceStale)
    let tables := db.runs key
    ensure tables.workflow_run.isNone integrityError
    let record := { frozen with run_id := key.run_id, authorization_id := initialAuthorizationId }
    let record := { record with digest := P.contentDigest record.body }
    return (record,
      { db.setRun key { tables with workflow_run := some record, task_graph_current := some 0 } with
        workflow_run_keys := db.workflow_run_keys.put (principal, command_key) ⟨digest, key.run_id⟩ })

def observeResource (db : Db) (principal : Principal) (pool_id : String) (reading : Observation) :
    Chk (Observation × Db) := do
  principal.requireRoute .resource
  let sequence := db.resource_observations.keys.foldl
    (fun last key => if key.1 = pool_id then max last key.2 else last) 0
  return (reading, { db with
    resource_observations := db.resource_observations.put (pool_id, sequence + 1) reading })

def activateResourcePolicy (db : Db) (principal : Principal) (pool_id : String)
    (policy : ResourcePolicy) : Chk (ResourcePolicy × Db) := do
  principal.requireRoute .resource
  return (policy, { db with resource_policies := db.resource_policies.put pool_id policy })

-- Requests

structure Pending where
  submission : Submission
  error : SchedulingError

structure Store where
  db : Db
  pending : List Pending := []

/-- One transaction of an entry point, with what it reads from outside: the
clock, and a token where one is drawn. -/
inductive Request
  | createRun (key : RunKey) (principal command_key digest : String) (current : Bool)
      (frozen : RunRecord)
  | observeResource (principal : Principal) (pool_id : String) (reading : Observation)
  | activateResourcePolicy (principal : Principal) (pool_id : String) (policy : ResourcePolicy)
  | issueGrant (key : RunKey) (payload : Json) (now : Rat)
  | delegateGrant (key : RunKey) (payload : Json) (clock : Nat → Rat)
  | revokeGrant (key : RunKey) (grant_id reason : String) (now : Rat)
  | createExpansion (key : RunKey) (grant_id : String) (payload : Json) (now : Rat)
  | issueCredential (key : RunKey) (payload : Json) (command_key token : String) (clock : Nat → Rat)
  | submitDecision (key : RunKey) (grant_id : String) (payload : Json) (principal : Principal)
      (command_key : String) (clock : Nat → Rat)
  | recordRejection (index : Nat) (now : Rat)
  | claim (key : RunKey) (payload : Json) (principal : Principal) (command_key : String)
      (clock : Nat → Rat)
  | reportExecution (key : RunKey) (task_id : String) (payload : Json) (principal : Principal)
      (trusted : Bool) (now : Rat)

/-- The database a transaction leaves, where it succeeds with a result. -/
def committed (db : Db) (result : Chk (α × Db)) : Db :=
  match result with
  | .ok (_, db') => db'
  | .error _ => db

/-- How a submission is answered. A refusal that is to be recorded is answered
once its receipt is written. -/
inductive Answer
  | accepted (receipt : DecisionReceipt) (fresh : Bool)
  | refused (error : SchedulingError)
  | recorded (record : Rejection)
  | unrecorded (pending : Pending)

def recordable (error : SchedulingError) : Bool := recordableRejections.contains error.code

def submitDecision (P : Platform) (db : Db) (key : RunKey) (grant_id : String) (payload : Json)
    (principal : Principal) (command_key : String) (clock : Nat → Rat) : Answer × Db :=
  match readSubmission P key grant_id payload principal command_key with
  | .error error => (.refused error, db)
  | .ok submission =>
    match decisionTransaction P db submission clock with
    | .ok ((receipt, fresh), db') => (.accepted receipt fresh, db')
    | .error (.replayed record) => (.recorded record, db)
    | .error (.adjudicated error) =>
      if recordable error then (.unrecorded ⟨submission, error⟩, db) else (.refused error, db)

/-- The second transaction of a refused submission, and its answer. -/
def answerPending (P : Platform) (db : Db) (pending : Pending) (now : Rat) : Answer × Db :=
  match recordRejection P db pending.submission pending.error.code pending.error.current_revision now
  with
  | (some record, db') => (.recorded record, db')
  | (none, db') => (.refused pending.error, db')

def stillPending (pending : List Pending) : Answer → List Pending
  | .unrecorded refusal => pending ++ [refusal]
  | _ => pending

def Store.serve (P : Platform) (store : Store) (request : Request) : Store :=
  let db := store.db
  match request with
  | .createRun key principal command_key digest current frozen =>
    { store with db := committed db (createRun P db key principal command_key digest current frozen) }
  | .observeResource principal pool_id reading =>
    { store with db := committed db (observeResource db principal pool_id reading) }
  | .activateResourcePolicy principal pool_id policy =>
    { store with db := committed db (activateResourcePolicy db principal pool_id policy) }
  | .issueGrant key payload now =>
    { store with db := committed db (issueGrant P db key payload now) }
  | .delegateGrant key payload clock =>
    { store with db := committed db (delegateGrant P db key payload clock) }
  | .revokeGrant key grant_id reason now =>
    { store with db := committed db (revokeGrant P db key grant_id reason now) }
  | .createExpansion key grant_id payload now =>
    { store with db := committed db (createExpansion P db key grant_id payload now) }
  | .issueCredential key payload command_key token clock =>
    { store with db := committed db (issueCredential P db key payload command_key token clock) }
  | .submitDecision key grant_id payload principal command_key clock =>
    let (answer, db') := submitDecision P db key grant_id payload principal command_key clock
    { db := db', pending := stillPending store.pending answer }
  | .recordRejection index now =>
    match store.pending[index]? with
    | none => store
    | some pending =>
      { db := (answerPending P db pending now).2, pending := store.pending.eraseIdx index }
  | .claim key payload principal command_key clock =>
    { store with db := committed db (claim P db key payload principal command_key clock) }
  | .reportExecution key task_id payload principal trusted now =>
    { store with db := committed db (reportExecution P db key task_id payload principal trusted now) }

/-- A store no run was created in yet, whatever projects there are. -/
def Store.initial (store : Store) : Prop := ∃ projects, store = { db := { projects } }

/-- The scheduling store, one request after another in any order. -/
def schedulingStore (P : Platform) : System Store Request := ⟨Store.initial, Store.serve P⟩

-- A small deployment

namespace Sample

/-! One project with one run, one resource pool and one worker, to evaluate the
store on. Its digest folds a value into 16 digits. -/

def mix (seed n : Nat) : Nat := (seed * 1000003 + n + 1) % 18446744073709551557

def foldText (seed : Nat) (text : String) : Nat :=
  text.toByteArray.data.toList.foldl (fun seed byte => mix seed byte.toNat) (mix seed 1)

mutual

def fold (seed : Nat) : Json → Nat
  | .null => mix seed 2
  | .bool b => mix seed (if b then 3 else 4)
  | .int n => mix (mix seed 5) (if n < 0 then 2 * n.natAbs + 1 else 2 * n.natAbs)
  | .float q => mix (mix (mix seed 6) q.den) (if q < 0 then 2 * q.num.natAbs + 1 else 2 * q.num.natAbs)
  | .str text => foldText seed text
  | .list items => mix (foldItems (mix seed 7) items) 8
  | .object fields => mix (foldFields (mix seed 9) fields) 10

def foldItems (seed : Nat) : List Json → Nat
  | [] => seed
  | item :: rest => foldItems (fold seed item) rest

def foldFields (seed : Nat) : List (String × Json) → Nat
  | [] => seed
  | (_, value) :: rest => foldFields (fold seed value) rest

end

def digit (n : Nat) : Char := if n < 10 then Char.ofNat (48 + n) else Char.ofNat (87 + n)

def digits : Nat → Nat → List Char
  | 0, _ => []
  | k + 1, n => digit (n % 16) :: digits k (n / 16)

def contentDigest (value : Json) : String := String.ofList (digits 16 (fold 0 value))

def platform : Platform where
  nfc text := text
  casefold text := text
  isspace c := c == ' '
  str _ := ""
  double q := some q
  contentDigest := contentDigest
  tokenDigest token := contentDigest (.str token)
  nfc_slash _ _ := by simp
  nfc_latin _ _ := rfl

abbrev system : System Store Request := schedulingStore platform

def key : RunKey := ⟨"p", "r"⟩

def start : Store := { db := { projects := .ofList [("p", some "owner")] } }

theorem start_initial : system.initial start := ⟨_, rfl⟩

def inputsDigest : String := "0000000000000000000000000000000000000000000000000000000000000000"

def frozen : RunRecord where
  run_id := ""
  inputs_digest := inputsDigest
  required_outcomes := ["o"]
  delivery_kind := "report"
  authorization_id := ""
  definitions := {
    role_refs := .ofList [("a", "b")]
    execution_kinds := .ofList [("k", ⟨[], [], []⟩)]
    contracts := ["c"] }
  rest := []
  digest := ""

def clock : Nat → Rat := fun _ => 0

def user : Principal := ⟨"u", .userSession, [], none, none, 0, routesByKind .userSession⟩

def role : Principal := ⟨"h", .roleProtocol, ["r"], some "g", some "i", 0, routesByKind .roleProtocol⟩

def worker : Principal := ⟨"w", .executionConsumer, ["r"], none, none, 0, routesByKind .executionConsumer⟩

def resourcePolicy : Json :=
  .object [("budget_ref", .str "u"), ("pool_id", .str "q"), ("cost_per_claim", .int 1)]

def grant (id : String) (actions : List Action) (fields : Fields := []) : Json :=
  .object ([("grant_id", .str id), ("subject_ref", .str "s"), ("role_instance", .str "i"),
    ("allowed_actions", ofTexts (actions.map Action.text)), ("inputs", .list []),
    ("scope", ofTexts ["d"]), ("write_scope", ofTexts ["d"]),
    ("required_outcomes", ofTexts ["o"]), ("role_refs", .object [("a", .str "b")]),
    ("resource_policy", resourcePolicy)] ++ fields)

def delegating : Json :=
  grant "g" [.expandGraph]
    [("execution_kind_refs", ofTexts ["k"]),
     ("delegation", .object [("allowed", .bool true), ("maximum_depth", .int 1),
       ("actions", ofTexts ["expand_graph"])])]

def expansion (id : String) : Json :=
  .object [("expansion_id", .str id), ("goal", .str "x"), ("required_outcomes", ofTexts ["o"])]

def task (item_key : String) (fields : Fields := []) : Json :=
  .object ([("item_key", .str item_key), ("role_alias", .str "a"), ("execution_kind_ref", .str "k"),
    ("output_contract_ref", .str "c"), ("write_zone", .str "d"),
    ("required_outcomes", ofTexts ["o"])] ++ fields)

def successor (item_key supersedes : String) : Json :=
  task item_key [("supersedes", .str supersedes), ("obligation_coverage", .object [("o", .str "o")])]

def expand (expansion_id : String) (tasks : List Json) (members : List String) : List Json :=
  [.object [("action", .str "expand_graph"), ("expansion_id", .str expansion_id), ("tasks", .list tasks)],
   .object [("action", .str "seal"), ("expansion_id", .str expansion_id),
     ("members", ofTexts members), ("obligations", ofTexts ["o"])]]

def decision (id : String) (base : Nat) (actions : List Json) : Json :=
  .object [("decision_id", .str id), ("grant_id", .str "g"), ("term", .int 0),
    ("expected_graph_revision", .int base), ("inputs_digest", .str inputsDigest),
    ("actions", .list actions)]

def opened : List Request := [.createRun key "owner" "1" "" true frozen,
   .observeResource user "q" ⟨.remaining, some 9, none, "manual"⟩,
   .activateResourcePolicy user "q" ⟨9, 0⟩,
   .issueGrant key (grant "g" [.expandGraph, .setDependencies, .seal]) 0,
   .createExpansion key "g" (expansion "e") 0]

def delegated : List Request := [.createRun key "owner" "1" "" true frozen,
   .issueGrant key delegating 0,
   .delegateGrant key (grant "h" [.expandGraph] [("parent_grant_id", .str "g"),
     ("execution_kind_refs", ofTexts ["k"])]) clock]

def submit (command_key : String) (base : Nat) (actions : List Json) : Request :=
  .submitDecision key "g" (decision ("d" ++ command_key) base actions) role command_key clock

def ready : List Request := opened ++ [submit "1" 0 (expand "e" [task "1"] ["d1.1"])]

def claim (command_key task_id : String) : Request :=
  .claim key (.object [("claim_key", .str command_key), ("task_id", .str task_id)]) worker command_key
    clock

def reportBody (outcome : String) : Json := .object [("outcome", .str outcome), ("evidence_ref", .str "v")]

def report (task_id outcome : String) (principal : Principal) (trusted : Bool) : Request :=
  .reportExecution key task_id (reportBody outcome) principal trusted 0

def after (requests : List Request) : Store := system.run start requests

theorem after_reach (requests : List Request) : system.Reach System.free (after requests) :=
  ⟨start, start_initial, .of_free_run⟩

def stateOf (store : Store) (task_id : String) : Option TaskState :=
  ((store.db.runs key).scheduling_tasks.get? task_id).map fun row => row.record.state

end Sample

end Karajan.Scheduling
