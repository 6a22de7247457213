import Karajan.Scheduling.Delegation
import Karajan.Scheduling.Handover

/-!
# The shared budget

A pool is counted over the whole ledger of a run: every unreleased row on it,
whatever grant it was taken under and whatever became of its task. A claim is
admitted below every ceiling in force. A grant's own ceiling is within those of
its ancestors, so the smallest one along the chain bounds what is held after.
-/

namespace Karajan.Scheduling

open List Check
open Sample (platform ready claimPayload worker after_reach)

def holding (db : Db) (key : RunKey) (pool_id : String) : List Consumption :=
  (ledgerOf db key).filter fun record => record.pool_id = pool_id && !record.released

def heldCost (rows : List Consumption) : Nat :=
  rows.foldl (fun consumed record => consumed + record.cost_per_claim) 0

theorem mem_holding : record ∈ holding db key pool_id ↔
    record ∈ ledgerOf db key ∧ record.pool_id = pool_id ∧ record.released = false := by
  simp [holding]

/-- A limit on what is held of a grant's pool: the pool's own, the grant's or an
ancestor's. -/
inductive Ceiling (db : Db) (key : RunKey) (grant : Grant) : Nat → Prop
  | pool (active : db.resource_policies.get? grant.resource_policy.pool_id = some policy) :
      Ceiling db key grant policy.max_concurrent_claims
  | own (capped : grant.resource_policy.max_active_claims = some cap) : Ceiling db key grant cap
  | above (ancestor : Ancestor (db.grants key) grant holder)
      (capped : holder.resource_policy.max_active_claims = some cap) : Ceiling db key grant cap

-- Admission

theorem le_foldl_min {l : List Nat} : n ≤ l.foldl min m ↔ n ≤ m ∧ ∀ c ∈ l, n ≤ c := by
  induction l generalizing m with
  | nil => simp
  | cons c l ih =>
    rw [foldl_cons, ih, Nat.le_min, forall_mem_cons, and_assoc]

structure Room (P : Platform) (db : Db) (key : RunKey) (grant : Grant) (policy : ResourcePolicy)
    (ceilings : List Nat) : Prop where
  active : db.resource_policies.get? grant.resource_policy.pool_id = some policy
  gained : gainCeilings P (db.runs key) grant = .ok ceilings
  slots : (holding db key grant.resource_policy.pool_id).length + 1 ≤
    ceilings.foldl min policy.max_concurrent_claims
  cost : heldCost (holding db key grant.resource_policy.pool_id) +
    grant.resource_policy.cost_per_claim ≤ ceilings.foldl min policy.max_concurrent_claims

theorem admitClaim_ok (h : admitClaim P db key grant = .ok admission) (hreason : admission.reason = none) :
    ∃ policy ceilings, Room P db key grant policy ceilings := by
  simp only [admitClaim, bind_ok] at h
  obtain ⟨ceilings, hceilings, h⟩ := h
  split at h
  · cases h; cases hreason
  case h_2 policy hpolicy =>
    refine ⟨policy, ceilings, ?_⟩
    split at h
    · cases h; cases hreason
    case h_2 observation _ =>
      split at h
      · cases h; cases hreason
      case h_2 remaining _ =>
        cases h
        simp only [ite_eq_right_iff, reduceCtorEq, imp_false, Bool.or_eq_true, not_or,
          decide_eq_true_eq, Nat.not_le, Nat.not_lt] at hreason
        exact ⟨hpolicy, hceilings, hreason.1.1, hreason.1.2⟩

theorem gainCeilings_own (h : gainCeilings P tables grant = .ok ceilings)
    (hcap : grant.resource_policy.max_active_claims = some cap) : cap ∈ ceilings := by
  simp only [gainCeilings, bind_ok, pure_ok] at h
  obtain ⟨rest, -, rfl⟩ := h
  simp [hcap]

theorem Room.within {ceilings : List Nat} (h : Room P db key grant policy ceilings)
    (hs : GrantsSound P (db.grants key)) (hgrant : (db.grants key).get? grant_id = some grant)
    (hn : n ≤ ceilings.foldl min policy.max_concurrent_claims) (hcap : Ceiling db key grant cap) : n ≤ cap := by
  rw [le_foldl_min] at hn
  cases hcap with
  | pool active =>
    rw [h.active] at active; cases active
    exact hn.1
  | own capped => exact hn.2 cap (gainCeilings_own h.gained capped)
  | above ancestor capped =>
    -- the grant's own ceiling is within its ancestor's
    obtain ⟨own, howned, hle⟩ := (ancestor.inherited hs hgrant).1.policy.max_active_claims cap capped
    exact (hn.2 own (gainCeilings_own h.gained howned)).trans hle

theorem requireAdmitted_ok (h : requireAdmitted P db key task_id document clock = .ok (grant, admission)) :
    grantRow P (db.runs key) (document.grant_id.getD "") = .ok grant ∧
      admitClaim P db key grant = .ok admission ∧ admission.reason = none := by
  simp only [requireAdmitted, bind_ok] at h
  obtain ⟨grant', hgrant, _, -, _, -, admission', hadmit, h⟩ := h
  split at h
  case h_1 hreason => cases h; exact ⟨hgrant, hadmit, hreason⟩
  · cases h

-- What is held after a claim

/-- What holds of a grant's pool once a claim was made under the grant. -/
structure WithinBudget (db : Db) (key : RunKey) (grant : Grant) : Prop where
  active : ∃ policy, db.resource_policies.get? grant.resource_policy.pool_id = some policy
  slots : ∀ cap, Ceiling db key grant cap → (holding db key grant.resource_policy.pool_id).length ≤ cap
  cost : ∀ cap, Ceiling db key grant cap → heldCost (holding db key grant.resource_policy.pool_id) ≤ cap

theorem Ceiling.of_claimed
    (h : Ceiling (claimedDb P db key principal command_key clock claim_key task_id document holder
      admission digest) key grant cap) : Ceiling db key grant cap := by
  have hgrants : (claimedDb P db key principal command_key clock claim_key task_id document holder
      admission digest).grants key = db.grants key := by
    simp [Db.grants, claimedDb, updateTask]
  cases h with
  | pool active => exact .pool active
  | own capped => exact .own capped
  | above ancestor capped => rw [hgrants] at ancestor; exact .above ancestor capped

/-- A claim that hands a task out leaves its pool within every ceiling, with its
own row among what is held. -/
theorem Claimed.within_budget (hs : GrantsSound P (db.grants key))
    (h : Claimed P db key payload command_key clock claim_key task_id document grant admission) :
    (db.grants key).get? grant.grant_id = some grant ∧
      WithinBudget (claimedDb P db key principal command_key clock claim_key task_id document grant
        admission digest) key grant := by
  obtain ⟨hrow, hadmit, hreason⟩ := requireAdmitted_ok h.admitted
  have hget := (grantRow_ok.mp hrow).1
  have hname : grant.grant_id = document.grant_id.getD "" := (hs _ grant hget).named
  obtain ⟨policy, ceilings, hroom⟩ := admitClaim_ok hadmit hreason
  have hheld : holding (claimedDb P db key principal command_key clock claim_key task_id document
      grant admission digest) key grant.resource_policy.pool_id =
      holding db key grant.resource_policy.pool_id ++
        [consumptionRecord P key (claimId P key claim_key) task_id grant document (clock 1)] := by
    rw [holding, ledgerOf_put rfl h.fresh ⟨rfl, rfl⟩, filter_append]
    simp [holding, consumptionRecord, Consumption.released]
  refine ⟨by rw [hname]; exact hget, ⟨policy, hroom.active⟩, ?_, ?_⟩
  · intro cap hcap
    rw [hheld, length_append]
    exact hroom.within hs hget hroom.slots hcap.of_claimed
  · intro cap hcap
    rw [hheld, heldCost, foldl_append]
    exact hroom.within hs hget hroom.cost hcap.of_claimed

-- What gives a slot back

/-- A trusted report that ends the execution a row was taken for. -/
def Reconciles (P : Platform) (store : Store) (request : Request) (record : Consumption) : Prop :=
  ∃ key task_id payload principal now document report,
    request = .reportExecution key task_id payload principal true now ∧
      Reporting P store.db key task_id payload principal true document record.claim_id report ∧
      report.outcome ∈ terminalOutcomes

/-- The row of a claim is kept as it is, or released by a report that reconciles it. -/
theorem row_step (hn : LedgerNamed store.db) (hget : store.db.budget_consumption.get? claim_id = some record) :
    (store.serve P request).db.budget_consumption.get? claim_id = some record ∨
      record.released = false ∧ Reconciles P store request record ∧ ∃ outcome reconciled_by now,
        (store.serve P request).db.budget_consumption.get? claim_id =
          some (record.release P outcome reconciled_by now) := by
  have hmove := (serve_effect (P := P) store request).ledger
  generalize (store.serve P request).db = db' at hmove ⊢
  cases hmove with
  | kept same => rw [same]; exact .inl hget
  | claimed claimed put =>
    rw [put]
    exact .inl (Dict.get?_put_new claimed.fresh hget)
  | reported reporting after =>
    rw [after, reportedLedger]
    split
    case isFalse => exact .inl hget
    case isTrue hsettles =>
      rw [get?_releaseConsumption, hget, Option.map_some]
      split
      case isFalse => exact .inl rfl
      case isTrue hreleases =>
        obtain ⟨rfl, hu⟩ := hreleases
        simp only [Bool.and_eq_true, contains_eq_mem, decide_eq_true_eq] at hsettles
        obtain ⟨⟨rfl, -⟩, hout⟩ := hsettles
        rw [← hn claim_id record hget] at reporting
        exact .inr ⟨hu, ⟨_, _, _, _, _, _, _, rfl, reporting, hout⟩, _, _, _, rfl⟩

theorem reconciled_of_released (hn : LedgerNamed store.db) (hm : record ∈ holding store.db key pool_id)
    (hgone : record ∉ holding (store.serve P request).db key pool_id) : Reconciles P store request record := by
  obtain ⟨hledger, hpool, hu⟩ := mem_holding.mp hm
  obtain ⟨⟨claim_id, hget⟩, hrun⟩ := mem_ledgerOf.mp hledger
  rcases row_step hn hget with hkept | ⟨-, hreconciles, -⟩
  · exact absurd (mem_holding.mpr ⟨mem_ledgerOf.mpr ⟨⟨claim_id, hkept⟩, hrun⟩, hpool, hu⟩) hgone
  · exact hreconciles

-- Every run

/-- After every claim that hands a task out, what its run holds of the pool is
within every ceiling of the claim's grant, in slots and in cost; a claim that
repeats an earlier one changes nothing. A row is held until a trusted report
ends the execution it was taken for. -/
theorem claims_within_budget (h : (schedulingStore P).Reach System.free store) (key : RunKey) :
    (∀ payload principal command_key clock result db',
      claim P store.db key payload principal command_key clock = .ok (result, db') →
        (result.2 = false ∧ db' = store.db) ∨
          (result.2 = true ∧ ∃ grant,
            (db'.grants key).get? result.1.grant_id = some grant ∧ WithinBudget db' key grant)) ∧
    ∀ request pool_id, ∀ record ∈ holding store.db key pool_id,
      record ∉ holding (store.serve P request).db key pool_id → Reconciles P store request record := by
  refine ⟨?_, ?_⟩
  · intro payload principal command_key clock result db' hclaim
    rcases claim_ok hclaim with hrepeat | ⟨_, _, _, grant, _, _, hc, rfl, rfl⟩
    · exact .inl hrepeat
    · obtain ⟨hget, hwithin⟩ := hc.within_budget (grants_sound h key)
      refine .inr ⟨rfl, grant, ?_, hwithin⟩
      simpa [Db.grants, claimedDb, updateTask, claimDocument] using hget
  · intro request pool_id record hm hgone
    exact reconciled_of_released (ledger_named h) hm hgone

namespace Sample

def close : Request := .activateResourcePolicy user "q" ⟨0, 0⟩

end Sample

open Sample in
theorem claims_within_budget_ready : ∃ result db', claim platform (after ready).db key
        (claimPayload "1" "d1.1") worker "1" clock = .ok (result, db') ∧
      result.2 = true ∧ ∃ grant, (db'.grants key).get? result.1.grant_id = some grant ∧
        WithinBudget db' key grant := by
  have hok : (claim platform (after ready).db key
      (claimPayload "1" "d1.1") worker "1" clock).toOption.map
        (fun answer => answer.1.2) = some true := by decide +kernel
  obtain ⟨⟨result, db'⟩, hclaim, hfresh⟩ := ok_of_map hok
  refine ⟨result, db', hclaim, hfresh, ?_⟩
  rcases (claims_within_budget (after_reach ready) key).1 _ _ _ _ result db'
    hclaim with ⟨hrepeat, -⟩ | ⟨-, hwithin⟩
  · rw [hrepeat] at hfresh; cases hfresh
  · exact hwithin

/-- The pool is closed after a claim, and the claim's command is repeated: it
succeeds, and what is held of the pool is above the pool's ceiling. -/
theorem repeated_above_ceiling : ∃ store result db' policy, Sample.system.Reach System.free store ∧
      claim platform store.db Sample.key (claimPayload "1" "d1.1") worker "1" Sample.clock = .ok (result, db') ∧
      (∃ grant, (db'.grants Sample.key).get? result.1.grant_id = some grant ∧
        grant.resource_policy.pool_id = "q") ∧
      db'.resource_policies.get? "q" = some policy ∧
      policy.max_concurrent_claims < (holding db' Sample.key "q").length := by
  let store := Sample.after (ready ++ [Sample.claim "1" "d1.1", Sample.close])
  have hok : (claim platform store.db Sample.key (claimPayload "1" "d1.1") worker
      "1" Sample.clock).toOption.map (fun answer =>
        (((answer.2.grants Sample.key).get? answer.1.1.grant_id).any
            fun grant => grant.resource_policy.pool_id = "q") &&
          (answer.2.resource_policies.get? "q").any fun policy =>
            policy.max_concurrent_claims < (holding answer.2 Sample.key "q").length) = some true := by
    decide +kernel
  obtain ⟨⟨result, db'⟩, hclaim, habove⟩ := ok_of_map hok
  simp only [Bool.and_eq_true, Option.any_eq_true, decide_eq_true_eq] at habove
  obtain ⟨⟨grant, hgrant, hpool⟩, policy, hpolicy, habove⟩ := habove
  exact ⟨store, result, db', policy, after_reach _, hclaim, ⟨grant, hgrant, hpool⟩, hpolicy, habove⟩

namespace Sample

def taken : Store := after (ready ++ [claim "1" "d1.1"])

def ended : Store := system.step taken (report "d1.1" "completed" user true)

def rowOf (store : Store) : Option Consumption := store.db.budget_consumption.get? (claimId platform key "1")

end Sample

end Karajan.Scheduling
