import Karajan.Scheduling.Revocation

/-!
# Credentials of revoked grants

A credential is meant to die with its grant. A revocation revokes the grants
derived from the one it names, and the credentials of the named grant alone: a
credential of a derived grant outlives it, and no later revocation finds it.
`credential_dies` says that this is the only way one does.
-/

namespace Karajan.Scheduling

open Check
open Sample (system platform after revoke)

def CredentialRow.key (row : CredentialRow) : RunKey := ⟨row.project_id, row.run_id⟩

variable {id credential_id grant_id : String}

def CredentialsFollow (db : Db) : Prop :=
  ∀ credential_id row grant_id, db.scheduling_credentials.get? credential_id = some row →
    row.record.grant_id = some grant_id → RevokedRow (db.grants row.key) grant_id →
    row.record.revoked_at ≠ none

def TokensDistinct (db : Db) : Prop :=
  ∀ id row id' row', db.scheduling_credentials.get? id = some row →
    db.scheduling_credentials.get? id' = some row' → row.digest = row'.digest → id = id'

-- What a request does to grants and credentials together

theorem RevokedRow.of_put
    (h : RevokedRow (grants.put name grant) id) (hlive : grant.live = true) : RevokedRow grants id := by
  obtain ⟨stored, hget, hdead⟩ := h
  rcases Dict.of_put hget with ⟨-, rfl⟩ | ⟨-, hget⟩
  · rw [hlive] at hdead; cases hdead
  · exact ⟨stored, hget, hdead⟩

theorem GrantMove.revokes (h : GrantMove P key tables request grants') (hr : RevokedRow grants' id) :
    RevokedRow tables.scheduler_grants id ∨
      ∃ x reason now, request = .revokeGrant key x reason now := by
  cases h with
  | kept => exact .inl hr
  | issued | delegated => exact .inl (hr.of_put rfl)
  | revoked => exact .inr ⟨_, _, _, rfl⟩

inductive AuthorityMove (P : Platform) (store : Store) : Request → Db → Prop
  | steady {db' : Db} (credentials : db'.scheduling_credentials = store.db.scheduling_credentials)
      (grants : ∀ key id, RevokedRow (db'.grants key) id → RevokedRow (store.db.grants key) id) :
      AuthorityMove P store request db'
  | issued (request : IssueRequest) (grant : Option Grant)
      (issuing : Issuing P store.db key payload command_key token clock request grant) :
      AuthorityMove P store (.issueCredential key payload command_key token clock)
        (issuedDb P store.db key request
          (credentialDocument P key request grant command_key token (clock 2)))
  | revoked (named : (store.db.grants key).get? x = some grant)
      (revocable : Revocable P store.db key x reason) :
      AuthorityMove P store (.revokeGrant key x reason now)
        (revokedDb P store.db key x reason now grant)

theorem Effect.authority (h : Effect P store request db') : AuthorityMove P store request db' := by
  have hkept : (∀ key x reason now, request ≠ .revokeGrant key x reason now) →
      ∀ key id, RevokedRow (db'.grants key) id → RevokedRow (store.db.grants key) id := by
    intro hne key id hr
    rcases (h.grants key).revokes hr with hold | ⟨x, reason, now, rfl⟩
    · exact hold
    · exact absurd rfl (hne key x reason now)
  cases h with
  | unchanged | resources => exact .steady rfl fun _ _ hr => hr
  | runCreated | grantIssued | grantDelegated | expansionCreated | decided | refusalRecorded
  | claimed | reported => exact .steady rfl (hkept (by simp))
  | credentialIssued request grant issuing => exact .issued request grant issuing
  | grantRevoked named revocable => exact .revoked named revocable

-- One request

/-- A grant derived from the named one is not revoked, and has a credential
that is not. -/
def LeavesCredential (db : Db) (key : RunKey) (x : String) : Prop :=
  ∃ id grant named credential_id row, (db.grants key).get? id = some grant ∧ grant.live = true ∧
    (db.grants key).get? x = some named ∧ Ancestor (db.grants key) grant named ∧
    db.scheduling_credentials.get? credential_id = some row ∧ row.key = key ∧
    row.record.grant_id = some id ∧ row.record.revoked_at = none

/-- No grant is revoked over the credential of a derived one, and no token is
drawn twice. -/
def CredentialsCovered (P : Platform) (store : Store) : Request → Prop
  | .revokeGrant key x reason _ =>
    Revocable P store.db key x reason → ¬ LeavesCredential store.db key x
  | .issueCredential _ _ _ token _ =>
    ∀ row ∈ store.db.scheduling_credentials.values, row.digest ≠ P.tokenDigest token
  | _ => True

theorem newly_revoked (hx : grants.get? x = some named)
    (h : RevokedRow (revokedGrants P grants x reason now) id) :
    RevokedRow grants id ∨ ∃ grant, grants.get? id = some grant ∧ grant.live = true ∧
      (id = x ∨ Ancestor grants grant named) := by
  obtain ⟨grant, hget, hdead⟩ := h
  obtain ⟨old, hold, hrow⟩ := get?_revoked hget
  cases hlive : old.live with
  | false => exact .inl ⟨old, hold, hlive⟩
  | true =>
    rcases hrow with ⟨haffected, -⟩ | ⟨-, rfl⟩
    · refine .inr ⟨old, hold, hlive, ?_⟩
      rcases Forest.mem_below hx haffected with rfl | ⟨row, hrow, ha⟩
      · exact .inl rfl
      · rw [hold] at hrow; cases hrow
        exact .inr ha
    · rw [hlive] at hdead; cases hdead

section
@[simp] theorem revokedDb_grants : (revokedDb P db key x reason now named).grants key =
    revokedGrants P (db.grants key) x reason now := by
  simp only [revokedDb, Db.grants, Db.setRun_runs_self]

theorem revokedDb_elsewhere (h : key' ≠ key) :
    (revokedDb P db key x reason now named).grants key' = db.grants key' := by
  simp only [revokedDb, Db.grants, Db.setRun_runs_of_ne h]

/-- A credential row of a revocation. A revoked one stays revoked, and one of
the named grant is revoked with it. -/
theorem get?_revokedDb
    (h : (revokedDb P db key x reason now named).scheduling_credentials.get? credential_id = some row) :
    ∃ old, db.scheduling_credentials.get? credential_id = some old ∧ row.digest = old.digest ∧
      row.key = old.key ∧ row.record.grant_id = old.record.grant_id ∧
      (old.record.revoked_at ≠ none → row.record.revoked_at ≠ none) ∧
      (named.live = true → old.key = key → old.record.grant_id = some x → row.record.revoked_at ≠ none) := by
  simp only [revokedDb] at h
  split at h
  · rw [revokeGrantCredentials, Dict.get?_mapValues, Option.map_eq_some_iff] at h
    obtain ⟨old, hold, rfl⟩ := h
    refine ⟨old, hold, ?_⟩
    split
    · have hrevoked : (old.record.revoke P reason now).revoked_at ≠ none := by
        simp [Credential.revoke, Credential.reseal]
      exact ⟨rfl, rfl, rfl, fun _ => hrevoked, fun _ _ _ => hrevoked⟩
    case isFalse hkept =>
      refine ⟨rfl, rfl, rfl, fun hr => hr, fun _ hkey hgrant hnone => hkept ?_⟩
      rw [← hkey]
      exact ⟨rfl, rfl, hgrant, hnone⟩
  case isFalse hdead => exact ⟨row, h, rfl, rfl, rfl, fun hr => hr, fun hl => absurd hl hdead⟩

theorem CredentialsFollow.revoked (h : CredentialsFollow db)
    (hnamed : (db.grants key).get? x = some named) (hleft : ¬ LeavesCredential db key x) :
    CredentialsFollow (revokedDb P db key x reason now named) := by
  intro credential_id row grant_id hrow hgrant hrevoked
  obtain ⟨old, hold, -, hkey, hsame, hkept, hnew⟩ := get?_revokedDb hrow
  rw [hsame] at hgrant
  rw [hkey] at hrevoked
  by_cases hrun : old.key = key
  · rw [hrun, revokedDb_grants] at hrevoked
    rcases newly_revoked hnamed hrevoked with hbefore | ⟨grant, hget, hlive, rfl | ha⟩
    · exact hkept (h credential_id old grant_id hold hgrant (by rwa [hrun]))
    · rw [hnamed] at hget; cases hget
      exact hnew hlive hrun hgrant
    · refine hkept fun hnone => hleft ?_
      exact ⟨grant_id, grant, named, credential_id, old, hget, hlive, hnamed, ha, hold, hrun, hgrant, hnone⟩
  · rw [revokedDb_elsewhere hrun] at hrevoked
    exact hkept (h credential_id old grant_id hold hgrant hrevoked)

end

theorem Issuing.live (h : Issuing P db key payload command_key token clock request grant)
    (hg : request.grant_id = some grant_id) : ¬ RevokedRow (db.grants key) grant_id := by
  intro hr
  have hgranted := h.granted
  simp only [requestedGrant, hg, bind_ok, pure_ok] at hgranted
  obtain ⟨_, hrow, _, hlive, -⟩ := hgranted
  exact hr.not_live hrow (requireChainLive_live hlive)

theorem CredentialsFollow.serve (h : CredentialsFollow store.db)
    (hok : CredentialsCovered P store request) : CredentialsFollow (store.serve P request).db := by
  have hmove := (serve_effect (P := P) store request).authority
  generalize (store.serve P request).db = db' at hmove
  cases hmove with
  | steady hcredentials hgrants =>
    intro credential_id row grant_id hrow hgrant hrevoked
    rw [hcredentials] at hrow
    exact h credential_id row grant_id hrow hgrant (hgrants _ _ hrevoked)
  | issued request grant issuing =>
    intro credential_id row grant_id hrow hgrant hrevoked
    simp only [issuedDb, Dict.get?_put] at hrow
    split at hrow
    · cases hrow; exact absurd hrevoked (issuing.live hgrant)
    · exact h credential_id row grant_id hrow hgrant hrevoked
  | revoked named revocable => exact h.revoked named (hok revocable)

theorem TokensDistinct.serve (h : TokensDistinct store.db)
    (hok : CredentialsCovered P store request) : TokensDistinct (store.serve P request).db := by
  have hmove := (serve_effect (P := P) store request).authority
  generalize (store.serve P request).db = db' at hmove
  cases hmove with
  | steady hcredentials _ =>
    intro id row id' row' hrow hrow' hsame
    rw [hcredentials] at hrow hrow'
    exact h id row id' row' hrow hrow' hsame
  | issued request grant issuing =>
    intro id row id' row' hrow hrow' hsame
    simp only [issuedDb, Dict.get?_put] at hrow hrow'
    split at hrow <;> split at hrow'
    case isTrue.isTrue hid hid' => rw [← hid, ← hid']
    case isTrue.isFalse =>
      cases hrow
      exact absurd hsame.symm (hok row' (Dict.mem_values.mpr ⟨id', hrow'⟩))
    case isFalse.isTrue =>
      cases hrow'
      exact absurd hsame (hok row (Dict.mem_values.mpr ⟨id, hrow⟩))
    case isFalse.isFalse => exact h id row id' row' hrow hrow' hsame
  | revoked =>
    intro id row id' row' hrow hrow' hsame
    obtain ⟨old, hold, hdigest, -⟩ := get?_revokedDb hrow
    obtain ⟨old', hold', hdigest', -⟩ := get?_revokedDb hrow'
    exact h id old id' old' hold hold' (by rw [← hdigest, ← hdigest', hsame])

-- Every run

theorem credentials_follow (h : (schedulingStore P).Reach (CredentialsCovered P) store) :
    CredentialsFollow store.db ∧ TokensDistinct store.db := by
  refine h.invariant (I := fun store => CredentialsFollow store.db ∧ TokensDistinct store.db) ?_ ?_
  · rintro _ ⟨projects, rfl⟩
    exact ⟨fun id row grant_id hrow => (nomatch hrow), fun id row id' row' hrow => (nomatch hrow)⟩
  · intro store request ⟨hf, ht⟩ hok
    exact ⟨hf.serve hok, ht.serve hok⟩

/-- In every run that revokes no grant over the credential of a derived one, a
credential of a revoked grant is refused at every time: neither its row nor any
other answers its token. -/
theorem credential_dies (h : (schedulingStore P).Reach (CredentialsCovered P) store)
    (hrow : store.db.scheduling_credentials.get? credential_id = some row)
    (hgrant : row.record.grant_id = some grant_id) (hrevoked : RevokedRow (store.db.grants row.key) grant_id)
    (htoken : P.tokenDigest token = row.digest) (now : Rat) (principal : Principal) :
    resolveCredential P store.db token now ≠ .ok principal := by
  obtain ⟨hf, ht⟩ := credentials_follow h
  intro hok
  simp only [resolveCredential, bind_ok, need_ok] at hok
  obtain ⟨_, -, found, hfound, _, hlive, -⟩ := hok
  have hdigest : found.digest = row.digest := by
    simpa [htoken] using List.find?_some hfound
  obtain ⟨found_id, hget⟩ := Dict.mem_values.mp (List.mem_of_find?_eq_some hfound)
  rw [ht found_id found credential_id row hget hrow hdigest, hrow] at hget
  cases hget
  simp only [credentialFrom, bind_ok, ensure_ok, Option.isNone_iff_eq_none] at hlive
  obtain ⟨_, -, _, hnone, -⟩ := hlive
  exact hf credential_id row grant_id hrow hgrant hrevoked hnone

def Sample.token : String := "aaaaaaaaaaaaaaaaaaaaaaaaaaaaaaaa"

open Sample in
def Sample.issue (grant_id : String) : Request :=
  .issueCredential key
    (.object [("kind", .str "execution_consumer"), ("run_id", .str "r"), ("grant_id", .str grant_id)])
    "k" token clock

open Sample in
def Sample.issued : List Request :=
  [.createRun key "owner" "1" "" true frozen, .issueGrant key delegating 0,
   issue "g"]

open Sample in
theorem Sample.issued_reach : system.Reach (CredentialsCovered platform) (after issued) := by
  have hnone : (after (issued.take 2)).db.scheduling_credentials.values.isEmpty = true := by
    decide +kernel
  refine .of_run start_initial ⟨trivial, trivial, ?_, trivial⟩
  intro row hrow
  have hrow : row ∈ (after (issued.take 2)).db.scheduling_credentials.values := hrow
  rw [List.isEmpty_iff.mp hnone] at hrow
  cases hrow

open Sample in
theorem Sample.issued_covered : ¬ LeavesCredential (after issued).db key "g" := by
  have hall : ((after issued).db.scheduling_credentials.values.all fun row =>
      row.record.grant_id = some "g") = true := by decide +kernel
  rintro ⟨id, grant, named, credential_id, row, hg, -, hx, ha, hrow, -, hgrant, -⟩
  have hown := List.all_eq_true.mp hall row (Dict.mem_values.mpr ⟨credential_id, hrow⟩)
  rw [hgrant] at hown
  cases Option.some.inj (of_decide_eq_true hown)
  rw [hx] at hg; cases hg
  exact absurd (Ancestor.depth_lt ha (grants_sound issued_reach key) hx) (Nat.lt_irrefl _)

open Sample in
def Sample.bereft (store : Store) (id : String) : Bool := store.db.scheduling_credentials.entries.any (fun e =>
    e.2.record.grant_id = some id && e.2.key = key &&
      e.2.digest = platform.tokenDigest token) &&
    ((store.db.grants key).get? id).any (fun grant => !grant.live)

open Sample in
theorem Sample.bereft_row (h : bereft store id = true) :
    ∃ credential_id row, store.db.scheduling_credentials.get? credential_id = some row ∧
      row.record.grant_id = some id ∧ RevokedRow (store.db.grants row.key) id ∧
      platform.tokenDigest token = row.digest := by
  simp only [bereft, Bool.and_eq_true, List.any_eq_true, decide_eq_true_eq,
    Option.any_eq_true, Bool.not_eq_true'] at h
  obtain ⟨⟨⟨credential_id, row⟩, hentry, ⟨hgrant, hkey⟩, hdigest⟩, grant, hget, hdead⟩ := h
  exact ⟨credential_id, row, Dict.get?_eq_some.mpr hentry, hgrant, ⟨grant, by rwa [hkey], hdead⟩, hdigest.symm⟩

open Sample in
/-- The credential of a grant that has none derived from it dies with it. -/
theorem credential_dies_alone : ∃ store, store = after (issued ++ [revoke]) ∧
      ∀ now principal, resolveCredential platform store.db token now ≠ .ok principal := by
  have hbereft : bereft (after (issued ++ [revoke])) "g" = true := by
    decide +kernel
  obtain ⟨credential_id, row, hrow, hgrant, hrevoked, htoken⟩ := bereft_row hbereft
  have hafter : after (issued ++ [revoke]) = system.step (after issued) revoke := by
    rfl
  have hreach : system.Reach (CredentialsCovered platform)
      (after (issued ++ [revoke])) := by
    exact issued_reach.step fun _ => issued_covered
  exact ⟨_, rfl, fun now principal =>
    credential_dies hreach hrow hgrant hrevoked htoken now principal⟩

open Sample in
/-- The credential of a derived grant resolves after the grant was revoked with
the one it derives from. -/
theorem credential_outlives : ∃ store credential_id row principal,
      store = after (delegated ++ [issue "h", revoke]) ∧
      store.db.scheduling_credentials.get? credential_id = some row ∧
      row.record.grant_id = some "h" ∧ RevokedRow (store.db.grants row.key) "h" ∧
      platform.tokenDigest token = row.digest ∧
      resolveCredential platform store.db token 0 = .ok principal := by
  have houtlives : (bereft
      (after (delegated ++ [issue "h", revoke])) "h" &&
      (resolveCredential platform (after (delegated ++
        [issue "h", revoke])).db token 0).isOk) = true := by decide +kernel
  generalize after (delegated ++ [issue "h", revoke]) = store
    at houtlives
  rw [Bool.and_eq_true] at houtlives
  obtain ⟨credential_id, row, hrow, hgrant, hrevoked, htoken⟩ := bereft_row houtlives.1
  obtain ⟨principal, hprincipal⟩ := ok_of_isOk houtlives.2
  exact ⟨store, credential_id, row, principal, rfl, hrow, hgrant, hrevoked, htoken, hprincipal⟩

end Karajan.Scheduling
