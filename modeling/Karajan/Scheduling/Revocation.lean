import Karajan.Scheduling.Delegation

/-!
# Revocation and expiry

A grant is revoked with everything derived from it, a child is only derived
from a live parent, and no child outlives its parent. So the state of a chain
is the state of its last grant, and nothing new happens under a revoked one.
-/

namespace Karajan.Scheduling

open Check
open Sample (platform after after_reach ready expand task role)
variable {id name : String}

def Grant.liveAt (grant : Grant) (now : Rat) : Prop := grant.live = true ∧ grantExpired grant now = false

theorem requireGrantLive_ok : requireGrantLive grant now = .ok u ↔ grant.liveAt now := by
  simp only [requireGrantLive, bind_ok, ensure_ok, Bool.not_eq_true', Grant.liveAt]
  constructor
  · rintro ⟨-, hlive, hexpired⟩
    exact ⟨hlive, hexpired⟩
  · rintro ⟨hlive, hexpired⟩
    exact ⟨(), hlive, hexpired⟩

theorem requireChainLive_live (h : requireChainLive P tables grant now = .ok u) : grant.liveAt now := by
  simp only [requireChainLive, bind_ok] at h
  obtain ⟨_, hlive, -⟩ := h
  exact requireGrantLive_ok.mp hlive

-- No live grant under a revoked one

def LiveInherited (grants : Dict String Grant) : Prop :=
  ∀ id grant parent, grants.get? id = some grant → ParentOf grants grant parent →
    grant.live = true → parent.live = true

theorem LiveInherited.put (h : LiveInherited grants) (hs : GrantsSound P grants) (hfresh : grants.get? id = none)
    (hnew : ∀ parent_id parent, grant.parent_grant_id = some parent_id →
      grants.get? parent_id = some parent → parent.live = true) : LiveInherited (grants.put id grant) := by
  intro id' grant' parent' hget ⟨parent_id, hlink, hparent⟩ hlive
  rw [Dict.get?_put] at hget hparent
  split at hget
  · cases hget
    split at hparent
    · cases hparent; exact hlive
    · exact hnew parent_id parent' hlink hparent
  · obtain ⟨stored, hstored, -⟩ := (hs id' grant' hget).child parent_id hlink
    split at hparent
    case isTrue heq => rw [← heq, hfresh] at hstored; cases hstored
    · exact h id' grant' parent' hget ⟨parent_id, hlink, hparent⟩ hlive

theorem get?_revoked (h : (revokedGrants P grants x reason now).get? id = some grant) :
    ∃ old, grants.get? id = some old ∧
      ((id ∈ affectedBy grants x ∧ grant.live = false) ∨
        ((id ∈ affectedBy grants x → old.live = false) ∧ grant = old)) := by
  rw [get?_revokedGrants, Option.map_eq_some_iff] at h
  obtain ⟨old, hold, rfl⟩ := h
  refine ⟨old, hold, ?_⟩
  simp only [Bool.and_eq_true, List.contains_eq_mem, decide_eq_true_eq]
  split
  case isTrue hrevoked => exact .inl ⟨hrevoked.1, rfl⟩
  case isFalse hkept =>
    refine .inr ⟨fun hm => ?_, rfl⟩
    simpa [hm] using hkept

theorem LiveInherited.revoked (h : LiveInherited grants) :
    LiveInherited (revokedGrants P grants x reason now) := by
  intro id grant parent hget ⟨parent_id, hlink, hparent⟩ hlive
  obtain ⟨old, hold, hrow⟩ := get?_revoked hget
  rcases hrow with ⟨-, hdead⟩ | ⟨hunaffected, rfl⟩
  · rw [hdead] at hlive; cases hlive
  · obtain ⟨oldParent, holdParent, hparentRow⟩ := get?_revoked hparent
    rcases hparentRow with ⟨haffected, -⟩ | ⟨-, rfl⟩
    · -- a child of an affected grant is affected
      have hchild : id ∈ affectedBy grants x := Forest.mem_below_of_parent hold hlink haffected
      rw [hunaffected hchild] at hlive; cases hlive
    · exact h id grant parent hold ⟨parent_id, hlink, holdParent⟩ hlive

theorem GrantMove.live_inherited (h : GrantMove P key tables request grants')
    (hs : GrantsSound P tables.scheduler_grants) (hl : LiveInherited tables.scheduler_grants) :
    LiveInherited grants' := by
  cases h with
  | kept => exact hl
  | issued parsed run valid fresh => exact hl.put hs fresh fun _ _ hp => by cases hp
  | revoked => exact hl.revoked
  | delegated delegated =>
    refine hl.put hs delegated.fresh fun parent_id parent hlink hparent => ?_
    obtain ⟨stated, _, -, -, hstated⟩ := delegated.parts
    have hget := (grantRow_ok.mp hstated).1
    have hname := (hs stated _ hget).named
    have hlinked := Option.some.inj hlink
    rw [← hlinked, hname, hget] at hparent
    cases hparent
    exact (requireGrantLive_ok.mp delegated.live).1

theorem live_inherited (h : (schedulingStore P).Reach ok store) (key : RunKey) :
    LiveInherited (store.db.grants key) := by
  suffices hboth : GrantsSound P (store.db.grants key) ∧ LiveInherited (store.db.grants key) from hboth.2
  refine h.invariant
    (I := fun store => GrantsSound P (store.db.grants key) ∧ LiveInherited (store.db.grants key)) ?_ ?_
  · rintro _ ⟨projects, rfl⟩
    exact ⟨fun id grant hget => (nomatch hget), fun id grant parent hget => (nomatch hget)⟩
  · intro store request ⟨hs, hl⟩ _
    have hmove := (serve_effect (P := P) store request).grants key
    exact ⟨hmove.sound hs, hmove.live_inherited hs hl⟩

-- The whole chain

theorem parent_liveAt (hs : GrantsSound P grants) (hl : LiveInherited grants)
    (hg : grants.get? id = some grant) (hp : ParentOf grants grant parent)
    (hlive : grant.liveAt now) : parent.liveAt now := by
  refine ⟨hl id grant parent hg hp hlive.1, ?_⟩
  cases hlimit : parent.expires_at with
  | none => simp [grantExpired, hlimit]
  | some limit =>
    obtain ⟨time, htime, hle⟩ := (derived_of_parent hs hg hp).narrowed.expires_at limit hlimit
    have hnow : ¬ time ≤ now := by simpa [Grant.liveAt, grantExpired, htime] using hlive.2
    have hlater : ¬ limit ≤ now := fun h => hnow (Rat.le_trans hle h)
    simpa [grantExpired, hlimit] using hlater

theorem Ancestor.liveAt (h : Ancestor grants grant ancestor) (hs : GrantsSound P grants)
    (hl : LiveInherited grants) (hg : grants.get? id = some grant) (hlive : grant.liveAt now) :
    ancestor.liveAt now :=
  h.inherits (I := fun g => g.liveAt now) hg (fun _ _ _ hget hp => parent_liveAt hs hl hget hp) hlive

/-- The walk up the parents ends. Each parent met stands higher than every row
seen before it, so it is a new row, and there are rounds left for it. -/
theorem requireParentsLive_of_live (hs : GrantsSound P tables.scheduler_grants)
    (hl : LiveInherited tables.scheduler_grants) (hg : tables.scheduler_grants.get? id = some grant)
    (hlive : grant.liveAt now) (hnodup : seen.Nodup)
    (hseen : ∀ name ∈ seen, ∃ met, tables.scheduler_grants.get? name = some met ∧
      grant.depth ≤ met.depth) (hrounds : tables.scheduler_grants.keys.length + 1 ≤ rounds + seen.length) :
    requireParentsLive P tables now rounds seen grant.parent_grant_id = .ok () := by
  induction rounds generalizing id grant seen with
  | zero =>
    have hsub : seen ⊆ tables.scheduler_grants.keys := fun name hm => by
      obtain ⟨met, hmet, -⟩ := hseen name hm
      exact Dict.mem_keys.mpr ⟨met, hmet⟩
    have hlength := (List.subperm_of_subset hnodup hsub).length_le
    omega
  | succ rounds ih =>
    cases hlink : grant.parent_grant_id with
    | none => rfl
    | some parent_id =>
      obtain ⟨parent, hparent, hderived⟩ := (hs id grant hg).child parent_id hlink
      have hup : parent.liveAt now := parent_liveAt hs hl hg ⟨parent_id, hlink, hparent⟩ hlive
      have hnew : parent_id ∉ seen := by
        intro hm
        obtain ⟨met, hmet, hle⟩ := hseen parent_id hm
        rw [hparent] at hmet; cases hmet
        rw [hderived.depth] at hle
        omega
      have hrow : grantRow P tables parent_id = .ok parent :=
        grantRow_ok.mpr ⟨hparent, (hs parent_id parent hparent).intact⟩
      simp only [requireParentsLive, bind_ok, ensure_ok]
      refine ⟨(), by simpa using hnew, parent, hrow, (), requireGrantLive_ok.mpr hup, ?_⟩
      refine ih hparent hup (List.nodup_cons.mpr ⟨hnew, hnodup⟩) ?_ ?_
      · intro name hm
        rcases List.mem_cons.mp hm with rfl | hm
        · exact ⟨parent, hparent, Nat.le_refl _⟩
        · obtain ⟨met, hmet, hle⟩ := hseen name hm
          exact ⟨met, hmet, by rw [hderived.depth] at hle; omega⟩
      · simp only [List.length_cons]
        omega

theorem requireChainLive_iff (hs : GrantsSound P tables.scheduler_grants)
    (hl : LiveInherited tables.scheduler_grants) (hg : tables.scheduler_grants.get? id = some grant) :
    requireChainLive P tables grant now = .ok () ↔ requireGrantLive grant now = .ok () := by
  constructor
  · exact fun h => requireGrantLive_ok.mpr (requireChainLive_live h)
  · intro h
    simp only [requireChainLive, bind_ok]
    refine ⟨(), h, ?_⟩
    have hname := (hs id grant hg).named
    refine requireParentsLive_of_live hs hl hg (requireGrantLive_ok.mp h) (by simp) ?_ ?_
    · intro name hm
      rw [List.mem_singleton.mp hm, hname]
      exact ⟨grant, hg, Nat.le_refl _⟩
    · simp [chainRounds, Dict.keys]

-- Under a revoked grant

def RevokedRow (grants : Dict String Grant) (id : String) : Prop :=
  ∃ grant, grants.get? id = some grant ∧ grant.live = false

theorem RevokedRow.put (h : RevokedRow grants id) (hfresh : grants.get? name = none) :
    RevokedRow (grants.put name grant) id := by
  obtain ⟨old, hold, hdead⟩ := h
  exact ⟨old, Dict.get?_put_new hfresh hold, hdead⟩

theorem GrantMove.stays_revoked (h : GrantMove P key tables request grants')
    (hr : RevokedRow tables.scheduler_grants id) : RevokedRow grants' id := by
  cases h with
  | kept => exact hr
  | issued _ _ _ fresh => exact hr.put fresh
  | delegated delegated => exact hr.put delegated.fresh
  | revoked =>
    obtain ⟨old, hold, hdead⟩ := hr
    exact ⟨old, by rw [get?_revokedGrants, hold]; simp [hdead], hdead⟩

theorem path_stays_revoked (h : (schedulingStore P).Path ok store later)
    (hr : RevokedRow (store.db.grants key) id) : RevokedRow (later.db.grants key) id :=
  h.keeps (I := fun store => RevokedRow (store.db.grants key) id)
    (fun store request hr _ => ((serve_effect store request).grants key).stays_revoked hr) hr

theorem revokeGrant_revokes (h : revokeGrant P db key x reason now = .ok (revocation, db')) :
    RevokedRow (db'.grants key) x := by
  obtain ⟨named, hnamed, -, rfl⟩ := revokeGrant_ok h
  have hget : ((revokedGrants P (db.runs key).scheduler_grants x reason now)).get? x = _ := get?_revokedGrants
  rw [hnamed] at hget
  simp only [Db.grants, revokedDb, Db.setRun_runs_self]
  refine ⟨_, hget, ?_⟩
  have hself : x ∈ affectedBy (db.runs key).scheduler_grants x := Forest.mem_below_self
  cases hlive : named.live with
  | true => simp [hself, hlive]; rfl
  | false => simp [hlive]

/-- Nothing new is accepted under the grant: no delegation and no expansion, and
of the others only what is answered from a record, which changes nothing. -/
structure ChainClosed (P : Platform) (db : Db) (key : RunKey) (id : String) : Prop where
  delegation : ∀ payload body clock result, delegationParts payload = .ok (id, body) →
    delegateGrant P db key payload clock ≠ .ok result
  expansion : ∀ payload now result, createExpansion P db key id payload now ≠ .ok result
  credential : ∀ payload command_key token clock request issued db',
    validateIssueRequest P payload (clock 0) = .ok request → request.grant_id = some id →
    issueCredential P db key payload command_key token clock = .ok (issued, db') →
    issued.token = none ∧ db' = db
  decision : ∀ payload principal command_key clock receipt fresh db',
    submitDecision P db key id payload principal command_key clock = (.accepted receipt fresh, db') →
    fresh = false ∧ db' = db
  claim : ∀ payload principal command_key clock task_id row result db',
    namedTask payload = some task_id → (db.tasks key).get? task_id = some row →
    row.record.grant_id = some id →
    claim P db key payload principal command_key clock = .ok (result, db') →
    result.2 = false ∧ db' = db

theorem RevokedRow.not_live (h : RevokedRow tables.scheduler_grants id)
    (hrow : grantRow P tables id = .ok grant) : ¬ grant.liveAt now := by
  obtain ⟨revoked, hget, hdead⟩ := h
  rw [(grantRow_ok.mp hrow).1] at hget
  cases hget
  rintro ⟨hlive, -⟩
  rw [hdead] at hlive; cases hlive

theorem RevokedRow.closed (h : RevokedRow (db.grants key) id) : ChainClosed P db key id where
  delegation payload body clock result hparts hok := by
    simp only [delegateGrant, bind_ok, hparts, Except.ok.injEq] at hok
    obtain ⟨_, rfl, _, -, _, -, parent, hparent, _, hlive, -⟩ := hok
    exact h.not_live hparent (requireGrantLive_ok.mp hlive)
  expansion payload now result hok := by
    simp only [createExpansion, bind_ok] at hok
    obtain ⟨_, -, _, -, _, -, _, -, _, -, _, -, _, -, _, -, _, -, grant, hgrant, _, hlive, -⟩ := hok
    exact h.not_live hgrant (requireChainLive_live hlive)
  credential payload command_key token clock request issued db' hvalid hnames hok := by
    rcases issueCredential_ok hok with hreplay | ⟨request', grant, hi, -⟩
    · exact hreplay
    · have hsame := hi.valid
      rw [hvalid] at hsame; cases hsame
      have hgranted := hi.granted
      simp only [requestedGrant, hnames, bind_ok, pure_ok] at hgranted
      obtain ⟨grant', hgrant, _, hlive, -⟩ := hgranted
      exact absurd (requireChainLive_live hlive) (h.not_live hgrant)
  decision payload principal command_key clock receipt fresh db' hok := by
    unfold submitDecision at hok
    split at hok
    · cases hok
    case h_2 submission hread =>
      obtain ⟨rfl, hgrant_id, -⟩ := readSubmission_ok hread
      split at hok
      case h_1 hdecided =>
        cases hok
        rcases decisionTransaction_ok hdecided with ⟨hstale, rfl, -⟩ | ⟨-, grant, _, _, _, hd, -⟩
        · exact ⟨hstale, rfl⟩
        · have hplan := adjudicatePlan_ok hd.planned
          have hgranted := hplan.granted
          rw [hgrant_id] at hgranted
          exact absurd (requireChainLive_live hplan.live) (h.not_live hgranted)
      · cases hok
      · split at hok <;> cases hok
  claim payload principal command_key clock task_id row result db' hnames hrow howner hok := by
    rcases claim_ok hok with hreplay | ⟨claim_key, task_id', document, grant, _, _, hc, -⟩
    · exact hreplay
    · have hsame := hc.names.named
      rw [hnames] at hsame; cases hsame
      obtain ⟨tasks, htasks, hget, -⟩ := hc.unchanged
      obtain ⟨row', hrow', rfl⟩ := found_of_tasksOf ⟨tasks, htasks, hget⟩
      rw [hrow] at hrow'; cases hrow'
      have hadmitted := hc.admitted
      simp only [requireAdmitted, bind_ok, howner, Option.getD_some] at hadmitted
      obtain ⟨grant', hgrant, _, hlive, -⟩ := hadmitted
      exact absurd (requireChainLive_live hlive) (h.not_live hgrant)

theorem serve_revokeGrant (h : revokeGrant P store.db key x reason now = .ok (revocation, db')) :
    (schedulingStore P).step store (.revokeGrant key x reason now) = { store with db := db' } := by
  simp only [schedulingStore, Store.serve, h, committed]

/-- A grant that is neither revoked nor expired has no ancestor that is, so the
check of one grant is the check of its chain; and after a revocation, however
the run goes on, nothing new is accepted under the grant or a descendant. -/
theorem chain_closes (h : (schedulingStore P).Reach System.free store) (key : RunKey) :
    (∀ id grant ancestor now, (store.db.grants key).get? id = some grant →
      Ancestor (store.db.grants key) grant ancestor → grant.liveAt now → ancestor.liveAt now) ∧
    (∀ id grant now, (store.db.grants key).get? id = some grant →
      (requireChainLive P (store.db.runs key) grant now = .ok () ↔ requireGrantLive grant now = .ok ())) ∧
    ∀ x reason now revocation db' later, revokeGrant P store.db key x reason now = .ok (revocation, db') →
      (schedulingStore P).Path System.free { store with db := db' } later →
      ∀ id, (id = x ∨ ∃ grant revoked, (later.db.grants key).get? id = some grant ∧
          (later.db.grants key).get? x = some revoked ∧
          Ancestor (later.db.grants key) grant revoked) →
        ChainClosed P later.db key id := by
  have hs := grants_sound h key
  have hl := live_inherited h key
  refine ⟨?_, ?_, ?_⟩
  · intro id grant ancestor now hg ha hlive
    exact Ancestor.liveAt ha hs hl hg hlive
  · intro id grant now hg
    exact requireChainLive_iff hs hl hg
  · intro x reason now revocation db' later hrevoke hpath id hid
    have hrevoked : RevokedRow (later.db.grants key) x := path_stays_revoked hpath (revokeGrant_revokes hrevoke)
    rcases hid with rfl | ⟨grant, revoked, hg, hx, ha⟩
    · exact hrevoked.closed
    · have hlater : (schedulingStore P).Reach System.free later := by
        rw [← serve_revokeGrant hrevoke] at hpath
        exact (h.step (a := .revokeGrant key x reason now) trivial).path hpath
      obtain ⟨stored, hstored, hdead⟩ := hrevoked
      rw [hx] at hstored; cases hstored
      refine RevokedRow.closed ⟨grant, hg, ?_⟩
      by_contra hlive
      have hup := ha.inherits (I := fun g : Grant => g.live = true) hg (live_inherited hlater key)
        (by simpa using hlive)
      rw [hdead] at hup; cases hup

def Sample.revoke : Request := .revokeGrant Sample.key "g" "x" 0

open Sample in
/-- Once the first grant is revoked, nothing new is accepted under the derived one. -/
theorem chain_closes_derived :
    ∃ revocation db', revokeGrant platform (after delegated).db key "g" "x"
        0 = .ok (revocation, db') ∧ ChainClosed platform db' key "h" := by
  have hok : (revokeGrant platform (after delegated).db key "g" "x"
      0).isOk = true := by decide +kernel
  obtain ⟨⟨revocation, db'⟩, hrevoke⟩ := ok_of_isOk hok
  refine ⟨revocation, db', hrevoke, ?_⟩
  have hafter : after (delegated ++ [revoke]) =
      { after delegated with db := db' } := by
    rw [← serve_revokeGrant hrevoke]
    rfl
  have hparent : parentOf { after delegated with db := db' } "h" = some "g" := by
    rw [← hafter]
    decide +kernel
  obtain ⟨grant, hgrant, hlink⟩ := Option.bind_eq_some_iff.mp hparent
  have hs := grants_sound (after_reach (delegated ++ [revoke])) key
  rw [hafter] at hs
  obtain ⟨parent, hget, -⟩ := (hs "h" grant hgrant).child "g" hlink
  exact (chain_closes (after_reach delegated) key).2.2 "g" "x" 0 revocation db' _
    hrevoke .refl "h" (.inr ⟨grant, parent, hgrant, hget, .single ⟨"g", hlink, hget⟩⟩)

def Sample.repeated (answer : Answer) : Bool :=
  match answer with
  | .accepted _ fresh => !fresh
  | _ => false

open Sample in
/-- A decision that was accepted before its grant was revoked is accepted again
when its command is repeated. -/
theorem replayed_after_revocation : ∃ revocation db' receipt, revokeGrant platform (after ready).db key "g"
        "x" 0 = .ok (revocation, db') ∧
      (submitDecision platform db' key "g"
        (decision "d1" 0 (expand "e" [task "1"] ["d1.1"])) role "1"
        clock).1 = .accepted receipt false := by
  have hok : (match revokeGrant platform (after ready).db key "g" "x" 0 with
      | .ok (_, db') => repeated (submitDecision platform db' key "g"
          (decision "d1" 0 (expand "e" [task "1"] ["d1.1"])) role "1"
          clock).1
      | .error _ => false) = true := by decide +kernel
  split at hok
  case h_2 => cases hok
  case h_1 revocation db' hrevoke =>
    unfold repeated at hok
    split at hok
    case h_2 => cases hok
    case h_1 receipt fresh hanswer =>
      cases fresh with
      | true => cases hok
      | false => exact ⟨revocation, db', receipt, hrevoke, hanswer⟩

end Karajan.Scheduling
