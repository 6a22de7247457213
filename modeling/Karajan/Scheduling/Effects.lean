import Karajan.Scheduling.Store

/-!
# What one request does

`Effect` lists everything a request can do to the database, with the guards
that were checked on the way. Every invariant of the store is a case analysis
over it; `serve_effect` is the only place the entry points are unfolded.
-/

namespace Karajan.Scheduling

open Check

abbrev Db.grantsPut (db : Db) (key : RunKey) (grant : Grant) : Db :=
  db.setRun key { db.runs key with
    scheduler_grants := (db.runs key).scheduler_grants.put grant.grant_id grant }

structure Delegated (P : Platform) (tables : RunTables) (payload : Json) (clock : Nat → Rat)
    (run : RunRecord) (parent root : Grant) (parsed : GrantPayload) : Prop where
  parts : ∃ parent_id body, delegationParts payload = .ok (parent_id, body) ∧
    validateGrantPayload P (.object body) = .ok parsed ∧ grantRow P tables parent_id = .ok parent
  live : requireGrantLive parent (clock 0) = .ok ()
  of_run : runRow P tables = .ok run
  frozen : requireFrozenDefinitions run parsed "grant#/role_refs" = .ok ()
  narrowed : requireSubset parent parsed.toAuthority = .ok ()
  of_root : grantRow P tables parent.root_grant_id = .ok root
  bounded : requireDelegationDepth root parent (parent.depth + 1) = .ok ()
  fresh : tables.scheduler_grants.get? parsed.grant_id = none

def revokedGrants (P : Platform) (grants : Dict String Grant) (grant_id reason : String) (now : Rat) :
    Dict String Grant :=
  grants.mapValues fun name grant =>
    if (affectedBy grants grant_id).contains name && grant.live then
      grant.revoke P grant_id reason now
    else grant

structure Revocable (P : Platform) (db : Db) (key : RunKey) (grant_id reason : String) : Prop where
  identifier : boundedIdentifier (.str grant_id) .grantNotFound "grant#/id" = .ok grant_id
  reason_length : 1 ≤ reason.toList.length ∧ reason.toList.length ≤ 512
  owned : owned P db key.project_id = .ok ()

/-- The database a revocation leaves. The credentials follow the named grant. -/
def revokedDb (P : Platform) (db : Db) (key : RunKey) (grant_id reason : String) (now : Rat)
    (grant : Grant) : Db :=
  { db.setRun key { db.runs key with
      scheduler_grants := revokedGrants P (db.runs key).scheduler_grants grant_id reason now } with
    scheduling_credentials :=
      if grant.live then
        revokeGrantCredentials P db.scheduling_credentials key grant_id reason now
      else db.scheduling_credentials }

structure Decided (P : Platform) (db : Db) (submission : Submission) (clock : Nat → Rat)
    (grant : Grant) (current : Nat) (plan : PlannedDecision) (receipt : DecisionReceipt)
    (tables : RunTables) : Prop where
  owned : owned P db submission.key.project_id = .ok ()
  unanswered : decisionReplay (db.runs submission.key) submission.command_key submission.digest = .ok none
  planned : adjudicatePlan P (db.runs submission.key) submission clock = .ok (grant, current, plan)
  committed : commitDecision P submission.key (db.runs submission.key) plan submission.parsed grant
    submission.principal submission.command_key submission.digest current (clock 2) =
    .ok (receipt, tables)

structure NamesTask (payload : Json) (claim_key task_id : String) : Prop where
  fields : ∃ fields, requireFields payload claimFields "claim#/payload" = .ok fields ∧
    field fields "claim_key" = .str claim_key ∧ field fields "task_id" = .str task_id

def namedTask (payload : Json) : Option String :=
  payload.object?.bind fun fields => (field fields "task_id").str?

theorem NamesTask.named (h : NamesTask payload claim_key task_id) : namedTask payload = some task_id := by
  obtain ⟨fields, hfields, -, htask⟩ := h.fields
  simp only [requireFields, bind_ok, need_ok, pure_ok] at hfields
  obtain ⟨_, hobject, _, -, rfl⟩ := hfields
  simp [namedTask, hobject, htask, Json.str?]

structure Claimed (P : Platform) (db : Db) (key : RunKey) (payload : Json) (command_key : String)
    (clock : Nat → Rat) (claim_key task_id : String) (document : Task) (grant : Grant)
    (admission : Admitted) : Prop where
  names : NamesTask payload claim_key task_id
  unanswered : (db.runs key).task_claims.get? command_key = none
  unchanged : ∃ tasks, tasksOf P (db.runs key) = .ok tasks ∧ tasks.get? task_id = some document ∧
    requireReady P (db.runs key) (ledgerOf db key) tasks task_id document = .ok ()
  unclaimed : document.state = .claimed → claimForTask (db.runs key) task_id = none
  admitted : requireAdmitted P db key task_id document clock = .ok (grant, admission)
  fresh : db.budget_consumption.get? (claimId P key claim_key) = none

structure Reporting (P : Platform) (db : Db) (key : RunKey) (task_id : String) (payload : Json)
    (principal : Principal) (trusted : Bool) (document : Task) (claim_id : String)
    (report : ExecutionReport) : Prop where
  read : readReport payload = .ok report
  unchanged : ∃ tasks, tasksOf P (db.runs key) = .ok tasks ∧ tasks.get? task_id = some document
  claimed : document.claim_id = some claim_id
  holds : trusted = true ∨ document.claimed_by = some principal.credential_id

def reportedLedger (P : Platform) (db : Db) (document : Task) (claim_id : String)
    (report : ExecutionReport) (principal : Principal) (trusted : Bool) (now : Rat) : Dict String Consumption :=
  if trusted && !reconciled document && terminalOutcomes.contains report.outcome then
    releaseConsumption P db.budget_consumption claim_id report.outcome principal.credential_id now
  else db.budget_consumption

def claimedDb (P : Platform) (db : Db) (key : RunKey) (principal : Principal) (command_key : String)
    (clock : Nat → Rat) (claim_key task_id : String) (document : Task) (grant : Grant)
    (admission : Admitted) (digest : String) : Db :=
  { db.setRun key { updateTask (db.runs key) task_id
        (claimedTask P document principal (claimId P key claim_key) (clock 1)) with
      task_claims := (db.runs key).task_claims.put command_key
        ⟨digest, claimDocument P key document grant admission principal (claimId P key claim_key)
          (clock 1)⟩ } with
    budget_consumption := db.budget_consumption.put (claimId P key claim_key)
      (consumptionRecord P key (claimId P key claim_key) task_id grant document (clock 1)) }

def reportedDb (P : Platform) (db : Db) (key : RunKey) (task_id : String) (document : Task)
    (claim_id : String) (report : ExecutionReport) (principal : Principal) (trusted : Bool) (now : Rat) : Db :=
  { db.setRun key (updateTask (db.runs key) task_id
      (reportedTask P document report principal trusted now)) with
    budget_consumption := reportedLedger P db document claim_id report principal trusted now }

structure Issuing (P : Platform) (db : Db) (key : RunKey) (payload : Json)
    (command_key token : String) (clock : Nat → Rat) (request : IssueRequest)
    (grant : Option Grant) : Prop where
  valid : validateIssueRequest P payload (clock 0) = .ok request
  granted : requestedGrant P (db.runs key) request (clock 1) = .ok grant
  unanswered : db.credential_issuances.get? ("owner", command_key) = none
  fresh : db.scheduling_credentials.get?
    (credentialDocument P key request grant command_key token (clock 2)).credential_id = none

def issuedDb (P : Platform) (db : Db) (key : RunKey) (request : IssueRequest) (credential : Credential) : Db :=
  { db with
    scheduling_credentials := db.scheduling_credentials.put credential.credential_id
      { project_id := key.project_id, run_id := key.run_id, digest := credential.token_digest,
        record := credential }
    credential_issuances := db.credential_issuances.put ("owner", credential.issue_command)
      { digest := subjectDigest P key request, credential_id := credential.credential_id } }

inductive Effect (P : Platform) (store : Store) : Request → Db → Prop
  | unchanged : Effect P store request store.db
  | runCreated (fresh : (store.db.runs key).workflow_run = none)
      (intact : record.digest = P.contentDigest record.body) :
      Effect P store (.createRun key principal command_key digest current frozen)
        { store.db.setRun key { store.db.runs key with
            workflow_run := some record, task_graph_current := some 0 } with
          workflow_run_keys := run_keys }
  | resources :
      Effect P store request
        { store.db with resource_observations := readings, resource_policies := policies }
  | grantIssued (parsed : GrantPayload) (run : RunRecord)
      (valid : validateGrantPayload P payload = .ok parsed)
      (fresh : (store.db.runs key).scheduler_grants.get? parsed.grant_id = none) :
      Effect P store (.issueGrant key payload now)
        (store.db.grantsPut key (rootDocument P key run parsed now))
  | grantDelegated (delegated : Delegated P (store.db.runs key) payload clock run parent root parsed) :
      Effect P store (.delegateGrant key payload clock)
        (store.db.grantsPut key (childDocument P key parent parsed (clock 1)))
  | grantRevoked (named : (store.db.runs key).scheduler_grants.get? grant_id = some grant)
      (revocable : Revocable P store.db key grant_id reason) :
      Effect P store (.revokeGrant key grant_id reason now)
        (revokedDb P store.db key grant_id reason now grant)
  | expansionCreated (expansion : Expansion) (grant : Grant)
      (granted : grantRow P (store.db.runs key) grant_id = .ok grant)
      (live : requireChainLive P (store.db.runs key) grant now = .ok ())
      (fresh : (store.db.runs key).task_expansions.get? expansion.expansion_id = none)
      (memberless : expansion.state = .opened ∧ expansion.members = .empty) :
      Effect P store (.createExpansion key grant_id payload now)
        (store.db.setRun key { store.db.runs key with
          task_expansions := (store.db.runs key).task_expansions.put expansion.expansion_id expansion })
  | credentialIssued (request : IssueRequest) (grant : Option Grant)
      (issuing : Issuing P store.db key payload command_key token clock request grant) :
      Effect P store (.issueCredential key payload command_key token clock)
        (issuedDb P store.db key request
          (credentialDocument P key request grant command_key token (clock 2)))
  | decided (submission : Submission) (grant : Grant) (current : Nat) (plan : PlannedDecision)
      (receipt : DecisionReceipt) (tables : RunTables)
      (read : readSubmission P key grant_id payload principal command_key = .ok submission)
      (decided : Decided P store.db submission clock grant current plan receipt tables) :
      Effect P store (.submitDecision key grant_id payload principal command_key clock)
        (store.db.setRun submission.key tables)
  | refusalRecorded (pending : Pending) (waiting : store.pending[index]? = some pending)
      (owned : owned P store.db pending.submission.key.project_id = .ok ())
      (fresh : (store.db.runs pending.submission.key).scheduling_decision_rejections.get?
        pending.submission.command_key = none) :
      Effect P store (.recordRejection index now)
        (store.db.setRun pending.submission.key { store.db.runs pending.submission.key with
          scheduling_decision_rejections :=
            (store.db.runs pending.submission.key).scheduling_decision_rejections.put
              pending.submission.command_key
              ⟨pending.submission.digest, rejectionRecord P pending.submission pending.error.code
                  pending.error.current_revision now⟩ })
  | claimed (claim_key task_id : String) (document : Task) (grant : Grant) (admission : Admitted)
      (digest : String)
      (claimed : Claimed P store.db key payload command_key clock claim_key task_id document grant
        admission) :
      Effect P store (.claim key payload principal command_key clock)
        (claimedDb P store.db key principal command_key clock claim_key task_id document grant admission
          digest)
  | reported (document : Task) (claim_id : String) (report : ExecutionReport)
      (reporting : Reporting P store.db key task_id payload principal trusted document claim_id
        report) :
      Effect P store (.reportExecution key task_id payload principal trusted now)
        (reportedDb P store.db key task_id document claim_id report principal trusted now)

-- Every request has one of the effects

section
theorem committed_of {p : Db → Prop} {result : Chk (α × Db)} (hsame : p db)
    (hok : ∀ a db', result = .ok (a, db') → p db') : p (committed db result) := by
  cases result with
  | ok pair => exact hok pair.1 pair.2 rfl
  | error => exact hsame

theorem createRun_effect
    (h : createRun P store.db key principal command_key sent current frozen = .ok (record, db')) :
    Effect P store (.createRun key principal command_key sent current frozen) db' := by
  simp only [createRun, bind_ok] at h
  obtain ⟨_, -, h⟩ := h
  split at h
  · simp only [bind_ok, pair_ok] at h
    obtain ⟨_, -, _, -, -, rfl⟩ := h
    exact .unchanged
  · simp only [bind_ok, ensure_ok, pair_ok] at h
    obtain ⟨_, -, _, hfresh, hrecord, rfl⟩ := h
    rw [hrecord]
    exact .runCreated (by simpa using hfresh) (by rw [← hrecord]; rfl)

theorem issueGrant_effect (h : issueGrant P store.db key payload now = .ok (grant, db')) :
    Effect P store (.issueGrant key payload now) db' := by
  simp only [issueGrant, bind_ok, pair_ok] at h
  obtain ⟨parsed, hparsed, _, -, run, -, _, -, ⟨stored, tables⟩, hinsert, -, rfl⟩ := h
  unfold insertGrant at hinsert
  split at hinsert
  · simp only [bind_ok, pair_ok] at hinsert
    obtain ⟨_, -, -, rfl⟩ := hinsert
    rw [Db.setRun_same]
    exact .unchanged
  case h_2 hnew =>
    cases hinsert
    exact .grantIssued parsed run hparsed hnew

theorem delegateGrant_effect (h : delegateGrant P store.db key payload clock = .ok (grant, db')) :
    Effect P store (.delegateGrant key payload clock) db' := by
  simp only [delegateGrant, bind_ok, pair_ok] at h
  obtain ⟨⟨parent_id, body⟩, hparts, parsed, hparsed, _, -, parent, hparent, _, hlive, run, hrun, _,
    hfrozen, _, hsubset, root, hroot, _, hdepth, ⟨stored, tables⟩, hinsert, -, rfl⟩ := h
  unfold insertGrant at hinsert
  split at hinsert
  · simp only [bind_ok, pair_ok] at hinsert
    obtain ⟨_, -, -, rfl⟩ := hinsert
    rw [Db.setRun_same]
    exact .unchanged
  case h_2 hnew =>
    cases hinsert
    exact .grantDelegated
      ⟨⟨parent_id, body, hparts, hparsed, hparent⟩, hlive, hrun, hfrozen, hsubset, hroot, hdepth, hnew⟩

theorem revokeGrant_ok (h : revokeGrant P db key grant_id reason now = .ok (revocation, db')) :
    ∃ grant, (db.runs key).scheduler_grants.get? grant_id = some grant ∧
      Revocable P db key grant_id reason ∧ db' = revokedDb P db key grant_id reason now grant := by
  simp only [revokeGrant, bind_ok, need_ok, ensure_ok, pair_ok] at h
  obtain ⟨id, hid, _, hreason, _, howned, grant, hgrant, -, rfl⟩ := h
  cases boundedIdentifier_ok hid
  exact ⟨grant, hgrant, ⟨hid, by simpa using hreason, howned⟩, rfl⟩

theorem revokeGrant_effect (h : revokeGrant P store.db key grant_id reason now = .ok (revocation, db')) :
    Effect P store (.revokeGrant key grant_id reason now) db' := by
  obtain ⟨grant, hgrant, hrevocable, rfl⟩ := revokeGrant_ok h
  exact .grantRevoked hgrant hrevocable

theorem createExpansion_effect (h : createExpansion P store.db key grant_id payload now = .ok (expansion, db')) :
    Effect P store (.createExpansion key grant_id payload now) db' := by
  simp only [createExpansion, bind_ok, ensure_ok, pair_ok] at h
  obtain ⟨_, -, id, -, _, -, _, -, _, -, _, -, _, -, _, -, _, -, grant, hgrant, _, hlive, _, -, _, -,
    _, hnew, hdoc, rfl⟩ := h
  have hfresh : (store.db.runs key).task_expansions.get? id = none := by
    simpa [Dict.contains] using hnew
  have hid : expansion.expansion_id = id := by rw [← hdoc]; rfl
  rw [hdoc]
  conv => arg 4; rw [← hid]
  exact .expansionCreated expansion grant hgrant hlive (by rwa [hid]) (by rw [← hdoc]; exact ⟨rfl, rfl⟩)

theorem issueCredential_ok (h : issueCredential P db key payload command_key token clock = .ok (issued, db')) :
    (issued.token = none ∧ db' = db) ∨
      (∃ request grant, Issuing P db key payload command_key token clock request grant ∧
        db' = issuedDb P db key request
          (credentialDocument P key request grant command_key token (clock 2))) := by
  simp only [issueCredential, bind_ok] at h
  obtain ⟨_, -, _, -, request, hrequest, replay, hreplay, h⟩ := h
  split at h
  · simp only [pair_ok] at h
    obtain ⟨rfl, rfl⟩ := h
    exact .inl ⟨rfl, rfl⟩
  · simp only [bind_ok, insertRow_ok, pair_ok] at h
    obtain ⟨grant, hgrant, _, -, _, -, _, ⟨hnew, rfl⟩, _, ⟨hissue, rfl⟩, -, rfl⟩ := h
    exact .inr ⟨request, grant, ⟨hrequest, hgrant, hissue, hnew⟩, rfl⟩

theorem issueCredential_effect
    (h : issueCredential P store.db key payload command_key token clock = .ok (issued, db')) :
    Effect P store (.issueCredential key payload command_key token clock) db' := by
  rcases issueCredential_ok h with ⟨-, rfl⟩ | ⟨request, grant, hi, rfl⟩
  · exact .unchanged
  · exact .credentialIssued request grant hi

theorem readSubmission_ok (h : readSubmission P key grant_id payload principal command_key = .ok submission) :
    submission.key = key ∧ submission.parsed.grant_id = grant_id ∧
      submission.command_key = command_key := by
  simp only [readSubmission, bind_ok, ensure_ok, decide_eq_true_eq, pure_ok] at h
  obtain ⟨_, -, _, -, _, -, parsed, -, _, hgrant, _, -, rfl⟩ := h
  exact ⟨rfl, hgrant, rfl⟩

theorem decisionTransaction_ok (h : decisionTransaction P db submission clock = .ok ((receipt, fresh), db')) :
    (fresh = false ∧ db' = db ∧ decisionReplay (db.runs submission.key) submission.command_key
        submission.digest = .ok (some receipt)) ∨
      (fresh = true ∧ ∃ grant current plan tables,
        Decided P db submission clock grant current plan receipt tables ∧
        db' = db.setRun submission.key tables) := by
  simp only [decisionTransaction, bind_ok, adjudicate_ok] at h
  obtain ⟨_, howned, replay, hreplay, h⟩ := h
  split at h
  · simp only [pair_ok] at h
    obtain ⟨⟨rfl, rfl⟩, rfl⟩ := h
    exact .inl ⟨rfl, rfl, hreplay⟩
  · simp only [bind_ok, adjudicate_ok, pair_ok] at h
    obtain ⟨⟨grant, current, plan⟩, hplan, ⟨receipt', tables⟩, hcommit, ⟨rfl, rfl⟩, rfl⟩ := h
    exact .inr ⟨rfl, grant, current, plan, tables, ⟨howned, hreplay, hplan, hcommit⟩, rfl⟩

theorem submitDecision_effect : Effect P store (.submitDecision key grant_id payload principal command_key clock)
      (submitDecision P store.db key grant_id payload principal command_key clock).2 := by
  unfold submitDecision
  split
  · exact .unchanged
  case h_2 submission hread =>
    split
    case h_1 receipt fresh db' hdecided =>
      rcases decisionTransaction_ok hdecided with
        ⟨-, rfl, -⟩ | ⟨-, grant, current, plan, tables, hd, rfl⟩
      · exact .unchanged
      · exact .decided submission grant current plan receipt tables hread hd
    · exact .unchanged
    · split <;> exact .unchanged

theorem answerPending_effect (waiting : store.pending[index]? = some pending) :
    Effect P store (.recordRejection index now) (answerPending P store.db pending now).2 := by
  unfold answerPending recordRejection
  cases howned : owned P store.db pending.submission.key.project_id with
  | error => exact .unchanged
  | ok =>
    simp only
    cases hrow : (store.db.runs pending.submission.key).scheduling_decision_rejections.get?
        pending.submission.command_key with
    | some existing =>
      by_cases hsame : existing.digest = pending.submission.digest
      · simp only [hsame, if_true]; exact .unchanged
      · simp only [hsame, if_false]; exact .unchanged
    | none =>
      simp only [Dict.putNew, Dict.contains, hrow]
      exact .refusalRecorded pending waiting howned hrow

theorem claim_ok (h : claim P db key payload principal command_key clock = .ok (result, db')) :
    (result.2 = false ∧ db' = db) ∨
      (∃ claim_key task_id document grant admission digest,
        Claimed P db key payload command_key clock claim_key task_id document grant admission ∧
        result = (claimDocument P key document grant admission principal (claimId P key claim_key)
          (clock 1), true) ∧
        db' = claimedDb P db key principal command_key clock claim_key task_id document grant
          admission digest) := by
  simp only [claim, bind_ok] at h
  obtain ⟨_, -, _, -, fields, hfields, claim_key, hkey, task_id, htask, _, -, replay, hreplay, h⟩ := h
  split at h
  · simp only [pair_ok] at h
    obtain ⟨rfl, rfl⟩ := h
    exact .inl ⟨rfl, rfl⟩
  · simp only [bind_ok, need_ok] at h
    obtain ⟨_, -, tasks, htasks, document, hdocument, h⟩ := h
    split at h
    · simp only [pair_ok] at h
      obtain ⟨rfl, rfl⟩ := h
      exact .inl ⟨rfl, rfl⟩
    case h_2 hunclaimed =>
      simp only [bind_ok, insertRow_ok, pair_ok] at h
      obtain ⟨_, hready, ⟨grant, admission⟩, hadmitted, _, ⟨hclaims, rfl⟩, _, ⟨hledger, rfl⟩, rfl, rfl⟩ := h
      refine .inr ⟨claim_key, task_id, document, grant, admission, _,
        ⟨?_, hclaims, ?_, ?_, hadmitted, hledger⟩, rfl, rfl⟩
      · exact ⟨fields, hfields, boundedIdentifier_ok hkey, boundedIdentifier_ok htask⟩
      · exact ⟨tasks, htasks, hdocument, hready⟩
      · intro hstate
        simpa [hstate] using hunclaimed

theorem claim_effect (h : claim P store.db key payload principal command_key clock = .ok (result, db')) :
    Effect P store (.claim key payload principal command_key clock) db' := by
  rcases claim_ok h with
    ⟨-, rfl⟩ | ⟨claim_key, task_id, document, grant, admission, digest, hc, -, rfl⟩
  · exact .unchanged
  · exact .claimed claim_key task_id document grant admission digest hc

theorem reportExecution_ok
    (h : reportExecution P db key task_id payload principal trusted now = .ok (task, db')) :
    ∃ document claim_id report, Reporting P db key task_id payload principal trusted document claim_id report ∧
      db' = reportedDb P db key task_id document claim_id report principal trusted now := by
  simp only [reportExecution, bind_ok, need_ok, ensure_ok, pair_ok] at h
  obtain ⟨_, -, _, -, report, hread, _, -, _, -, tasks, htasks, document, hdocument, claim_id, hclaim,
    _, hholds, -, rfl⟩ := h
  exact ⟨document, claim_id, report, ⟨hread, ⟨tasks, htasks, hdocument⟩, hclaim, by simpa using hholds⟩, rfl⟩

theorem reportExecution_effect
    (h : reportExecution P store.db key task_id payload principal trusted now = .ok (task, db')) :
    Effect P store (.reportExecution key task_id payload principal trusted now) db' := by
  obtain ⟨document, claim_id, report, hr, rfl⟩ := reportExecution_ok h
  exact .reported document claim_id report hr

theorem serve_effect (store : Store) (request : Request) : Effect P store request (store.serve P request).db := by
  cases request with
  | createRun => exact committed_of .unchanged fun _ _ => createRun_effect
  | observeResource =>
    refine committed_of .unchanged fun _ _ h => ?_
    simp only [observeResource, bind_ok, pair_ok] at h
    obtain ⟨_, -, -, rfl⟩ := h
    exact .resources
  | activateResourcePolicy =>
    refine committed_of .unchanged fun _ _ h => ?_
    simp only [activateResourcePolicy, bind_ok, pair_ok] at h
    obtain ⟨_, -, -, rfl⟩ := h
    exact .resources
  | issueGrant => exact committed_of .unchanged fun _ _ => issueGrant_effect
  | delegateGrant => exact committed_of .unchanged fun _ _ => delegateGrant_effect
  | revokeGrant => exact committed_of .unchanged fun _ _ => revokeGrant_effect
  | createExpansion => exact committed_of .unchanged fun _ _ => createExpansion_effect
  | issueCredential => exact committed_of .unchanged fun _ _ => issueCredential_effect
  | submitDecision => exact submitDecision_effect
  | recordRejection index now =>
    simp only [Store.serve]
    split
    · exact .unchanged
    case h_2 pending waiting => exact answerPending_effect waiting
  | claim => exact committed_of .unchanged fun _ _ => claim_effect
  | reportExecution => exact committed_of .unchanged fun _ _ => reportExecution_effect

end

end Karajan.Scheduling
