import Karajan.Admission.Budget

/-!
# A run's budget is neither exceeded nor refunded

Approvals and operations change beside the ledger, and the ledger only by a
claim. Each claim goes at its end, within the bounds it is stored with; a
boundary that was captured says of a later time what the two checks say then.
-/

namespace Karajan.Admission

open List Check

-- Claims in any order

structure World where
  budgets : Budgets
  operations : List OperationRow
  runs : List RunDocument

inductive Action
  | claim (run_id operation_id attempt_id : String) (scope : Scope) (now : Reading)
  | current (run_id operation_id attempt_id : String) (now : Reading)
  | admission (run_id : String) (now : Reading)
  | capture (run_id operation_id attempt_id : String)
  | approve (run : RunDocument)
  | record (operation : OperationRow)
  | createTable

namespace World

section
variable (w : World)

def budget (run_id : String) : Option RunExecutionBudget := w.budgets.bind fun table => table.get? run_id

def run (run_id : String) : Except BudgetError RunDocument := need (w.runs.find? (·.id = run_id)) .exception

def operation (operation_id : String) : Except BudgetError OperationRow :=
  need (w.operations.find? (·.id = operation_id)) .exception

def approved (run_id : String) : Except BudgetError BudgetResource := do
  approvedResource (← w.run run_id)

def claim (run_id operation_id attempt_id : String) (scope : Scope) (now : Reading) :
    Except BudgetError (Dict String RunExecutionBudget × RunExecutionBudget) := do
  let operation ← w.operation operation_id
  let run ← w.run run_id
  claimProcess w.budgets w.operations run operation attempt_id scope now

def identity (run_id operation_id attempt_id : String) (scope : Scope) : Except BudgetError ClaimIdentity := do
  let operation ← w.operation operation_id
  let plan ← activePlan (← w.run run_id)
  return claimIdentity plan operation attempt_id scope

def current (run_id operation_id attempt_id : String) (now : Reading) : Except BudgetError Rat := do
  currentProcess w.budgets (← w.run run_id) operation_id attempt_id now

def admission (run_id : String) (now : Reading) : Except BudgetError Rat := do
  admissionAllowed w.budgets (← w.run run_id) now

def capture (run_id operation_id attempt_id : String) : Except BudgetError RunBudgetBoundary := do
  captureRunBudgetBoundary w.budgets (← w.run run_id) operation_id attempt_id

def step : Action → World
  | .claim run_id operation_id attempt_id scope now =>
    match w.claim run_id operation_id attempt_id scope now with
    | .ok (table, _) => { w with budgets := some table }
    | .error _ => w
  | .current .. | .admission .. | .capture .. => w
  | .approve run => { w with runs := run :: w.runs.filter (·.id ≠ run.id) }
  | .record operation =>
    { w with operations := operation :: w.operations.filter (·.id ≠ operation.id) }
  | .createTable => { w with budgets := some (w.budgets.getD .empty) }

end

end World

def system : System World Action where
  initial w := w.budgets = none ∨ w.budgets = some .empty
  step := World.step

-- Ledgers

namespace RunExecutionBudget

structure Continues (budget budget' : RunExecutionBudget) : Prop where
  claims : budget.claims <+: budget'.claims
  started_at : budget'.started_at = budget.started_at
  attempts : budget'.max_total_attempts ≤ budget.max_total_attempts
  seconds : budget'.max_duration_seconds ≤ budget.max_duration_seconds

/-- A claim on its acceptance, the last one of the ledger and within its bounds. -/
structure Accepts (budget : RunExecutionBudget) (claim : ProcessClaim) : Prop where
  last : budget.claims.getLast? = some claim
  count : budget.claims.length ≤ budget.max_total_attempts
  started : budget.started_at ≤ claim.claimed_at
  ends : claim.claimed_at < budget.started_at + budget.max_duration_seconds

structure WellKept (budget : RunExecutionBudget) : Prop where
  once : (budget.claims.map (·.attempt_id)).Nodup
  first : ∃ claim, budget.claims.head? = some claim ∧ claim.claimed_at = budget.started_at ∧
    claim.scope = .writer
  count : budget.claims.length ≤ budget.max_total_attempts

theorem Continues.refl (budget : RunExecutionBudget) : budget.Continues budget :=
  ⟨prefix_refl _, rfl, le_refl _, le_refl _⟩

theorem Continues.trans {b b' b'' : RunExecutionBudget} (h : b.Continues b') (h' : b'.Continues b'') :
    b.Continues b'' where
  claims := h.claims.trans h'.claims
  started_at := h'.started_at.trans h.started_at
  attempts := h'.attempts.trans h.attempts
  seconds := h'.seconds.trans h.seconds

end RunExecutionBudget

theorem narrowed_ok (h : narrowed stored bound = .ok n) : n ≤ stored := by
  simp only [narrowed, bind_ok, need_ok, pure_ok] at h
  obtain ⟨value, -, rfl⟩ := h
  exact min_le_left _ _

/-- What an accepted claim finds and leaves: the claim in the ledger, or a new last one. -/
structure Claimed (budget? : Option RunExecutionBudget) (budget : RunExecutionBudget)
    (claim : ProcessClaim) : Prop where
  accepts : budget.Accepts claim
  fresh : ∀ row ∈ (budget?.map (·.claims)).getD [], row.attempt_id ≠ claim.attempt_id
  claims : budget.claims = (budget?.map (·.claims)).getD [] ++ [claim]
  continues : ∀ b, budget? = some b → b.Continues budget
  starts : budget? = none → claim.claimed_at = budget.started_at ∧ claim.scope = .writer

theorem openBudget_ok (h : openBudget table operations run_id resource scope time = .ok budget) :
    table.get? run_id = some budget ∨
      table.get? run_id = none ∧ budget.claims = [] ∧ budget.started_at = time ∧ scope = .writer := by
  unfold openBudget at h
  split at h
  case h_1 stored hstored =>
    cases h
    exact .inl hstored
  case h_2 hnone =>
    simp only [bind_ok, ensure_ok, need_ok, pure_ok, Bool.and_eq_true, decide_eq_true_eq] at h
    obtain ⟨-, ⟨hscope, -⟩, attempts, -, seconds, -, rfl⟩ := h
    exact .inr ⟨hnone, rfl, rfl, hscope⟩

theorem claimProcess_ok
    (h : claimProcess table operations run operation attempt_id scope now = .ok (rows', budget)) :
    ∃ rows plan, table = some rows ∧ activePlan run = .ok plan ∧
      ((rows' = rows ∧ rows.get? run.id = some budget ∧ ∃ claim ∈ budget.claims,
          claim.toClaimIdentity = claimIdentity plan operation attempt_id scope) ∨
        (rows' = rows.put run.id budget ∧ ∃ claim, now = some claim.claimed_at ∧
          claim.toClaimIdentity = claimIdentity plan operation attempt_id scope ∧
          Claimed (rows.get? run.id) budget claim)) := by
  simp only [claimProcess, bind_ok, need_ok] at h
  obtain ⟨rows, rfl, time, rfl, plan, hplan, resource, -, stored, hopen, h⟩ := h
  refine ⟨rows, plan, rfl, hplan, ?_⟩
  have hstored := openBudget_ok hopen
  split at h
  case h_1 previous hprevious =>
    simp only [bind_ok, ensure_ok, pure_ok, decide_eq_true_eq, Prod.mk.injEq] at h
    obtain ⟨-, hsame, rfl, rfl⟩ := h
    have hmem := mem_of_find?_eq_some hprevious
    rcases hstored with hget | ⟨-, hnil, -⟩
    · exact .inl ⟨rfl, hget, previous, hmem, hsame⟩
    · simp [hnil] at hmem
  case h_2 hnew =>
    simp only [bind_ok, ensure_ok, pure_ok, decide_eq_true_eq, Prod.mk.injEq] at h
    obtain ⟨attempts, hattempts, seconds, hseconds, -, hstarted, -, hcount, -, hends, rfl, rfl⟩ := h
    have hfresh : ∀ row ∈ stored.claims, row.attempt_id ≠ attempt_id := by
      simpa using find?_eq_none.mp hnew
    refine .inr ⟨rfl, { claimIdentity plan operation attempt_id scope with claimed_at := time },
      rfl, rfl, ?_⟩
    have haccepts : RunExecutionBudget.Accepts
        ⟨stored.started_at, attempts, seconds, stored.claims ++
          [{ claimIdentity plan operation attempt_id scope with claimed_at := time }]⟩
        { claimIdentity plan operation attempt_id scope with claimed_at := time } := by
      constructor
      case last => simp
      case count => simp; omega
      case started => exact hstarted
      case ends => exact hends
    rcases hstored with hget | ⟨hnone, hnil, hstart, hscope⟩
    · refine ⟨haccepts, by simpa [hget, claimIdentity] using hfresh, by simp [hget], ?_, by simp [hget]⟩
      intro b hb
      obtain rfl : stored = b := by simpa [hget] using hb
      exact ⟨prefix_append .., rfl, narrowed_ok hattempts, narrowed_ok hseconds⟩
    · refine ⟨haccepts, by simp [hnone], by simp [hnone, hnil], by simp [hnone], ?_⟩
      intro _
      exact ⟨hstart.symm, hscope⟩

-- Steps and runs

variable {w w' : World} {budget : RunExecutionBudget}

theorem World.run_id_of_ok {run : RunDocument} (h : w.run run_id = .ok run) : run.id = run_id := by
  simpa using find?_some (need_ok.mp h)

theorem World.claim_ok (h : w.claim run_id operation_id attempt_id scope now = .ok (table, budget)) :
    ∃ rows claim, w.budgets = some rows ∧
      w.identity run_id operation_id attempt_id scope = .ok claim.toClaimIdentity ∧
      ((table = rows ∧ w.budget run_id = some budget ∧ claim ∈ budget.claims) ∨
        (table = rows.put run_id budget ∧ now = some claim.claimed_at ∧
          Claimed (w.budget run_id) budget claim)) := by
  simp only [World.claim, bind_ok] at h
  obtain ⟨operation, hoperation, run, hrun, h⟩ := h
  obtain rfl := World.run_id_of_ok hrun
  obtain ⟨rows, plan, hrows, hplan, hcases⟩ := claimProcess_ok h
  have hbudget : w.budget run.id = rows.get? run.id := by simp [World.budget, hrows]
  rcases hcases with ⟨rfl, hget, claim, hmem, hid⟩ | ⟨rfl, claim, hnow, hid, hclaimed⟩
  · refine ⟨table, claim, hrows, ?_, .inl ⟨rfl, hbudget.trans hget, hmem⟩⟩
    simp [World.identity, hoperation, hrun, hplan, hid, pure, Except.pure]
  · refine ⟨rows, claim, hrows, ?_, .inr ⟨rfl, hnow, hbudget ▸ hclaimed⟩⟩
    simp [World.identity, hoperation, hrun, hplan, hid, pure, Except.pure]

theorem step_budget (w : World) (a : Action) (run_id : String) :
    (system.step w a).budget run_id = w.budget run_id ∨
      ∃ budget claim, (system.step w a).budget run_id = some budget ∧
        Claimed (w.budget run_id) budget claim := by
  cases a with
  | claim key operation_id attempt_id scope now =>
    simp only [system, World.step]
    split
    case h_2 => exact .inl rfl
    case h_1 table budget hclaim =>
      obtain ⟨rows, claim, hrows, -, hcases⟩ := World.claim_ok hclaim
      rcases hcases with ⟨rfl, -, -⟩ | ⟨rfl, -, hclaimed⟩
      · exact .inl (by simp [World.budget, hrows])
      · by_cases hkey : key = run_id
        · subst hkey
          exact .inr ⟨budget, claim, by simp [World.budget], hclaimed⟩
        · exact .inl (by simp [World.budget, hrows, Dict.get?_put_of_ne hkey])
  | createTable =>
    refine .inl ?_
    cases hw : w.budgets <;> simp [system, World.step, World.budget, hw]
  | current | admission | capture | approve | record => exact .inl rfl

theorem initial_budget (hi : system.initial w) : w.budget run_id = none := by
  rcases hi with hi | hi <;> simp [World.budget, hi]

theorem step_continues (w : World) (a : Action) (h : w.budget run_id = some budget) :
    ∃ budget', (system.step w a).budget run_id = some budget' ∧ budget.Continues budget' := by
  rcases step_budget w a run_id with hsame | ⟨budget', claim, hget, hclaimed⟩
  · exact ⟨budget, hsame.trans h, .refl budget⟩
  · exact ⟨budget', hget, hclaimed.continues budget h⟩

open Karajan.System (free)

theorem path_continues (h : system.Path free w w') (hw : w.budget run_id = some budget) :
    ∃ budget', w'.budget run_id = some budget' ∧ budget.Continues budget' := by
  induction h with
  | refl => exact ⟨budget, hw, .refl budget⟩
  | @step t a _ _ ih =>
    obtain ⟨middle, hmiddle, hcontinues⟩ := ih
    obtain ⟨budget', hget, hcontinues'⟩ := step_continues t a hmiddle
    exact ⟨budget', hget, hcontinues.trans hcontinues'⟩

theorem Claimed.wellKept (h : Claimed budget? budget claim) (hkept : ∀ b, budget? = some b → b.WellKept) :
    budget.WellKept := by
  constructor
  case once =>
    have hold : (((budget?.map (·.claims)).getD []).map (·.attempt_id)).Nodup := by
      cases budget? with
      | none => simp
      | some b => exact (hkept b rfl).once
    rw [h.claims, map_append, nodup_append']
    refine ⟨hold, by simp, ?_⟩
    intro attempt hattempt hlast
    obtain ⟨row, hrow, rfl⟩ := List.mem_map.mp hattempt
    exact h.fresh row hrow (by simpa using hlast)
  case first =>
    cases budget? with
    | none => exact ⟨claim, by simp [h.claims], h.starts rfl⟩
    | some b =>
      obtain ⟨first, hfirst, htime, hscope⟩ := (hkept b rfl).first
      refine ⟨first, ?_, htime.trans (h.continues b rfl).started_at.symm, hscope⟩
      rw [h.claims, head?_append]
      simp [hfirst]
  case count => exact h.accepts.count

section
variable (h : system.Reach System.free w) (hw : w.budget run_id = some budget)
include h hw

theorem reach_wellKept : budget.WellKept := by
  have hall : ∀ budget, w.budget run_id = some budget → budget.WellKept := by
    refine h.invariant (I := fun w => ∀ budget, w.budget run_id = some budget → budget.WellKept) ?_ ?_
    · intro i hi budget hb
      simp [initial_budget hi] at hb
    · intro w a hkept _ budget hb
      rcases step_budget w a run_id with hsame | ⟨budget', claim, hget, hclaimed⟩
      · exact hkept budget (hsame ▸ hb)
      · obtain rfl : budget' = budget := by simpa [hget] using hb
        exact hclaimed.wellKept hkept
  exact hall budget hw

theorem reach_accepted (hc : claim ∈ budget.claims) : ∃ v accepted, system.Reach free v ∧ system.Path free v w ∧
      v.budget run_id = some accepted ∧ accepted.Accepts claim := by
  have hsince := h.since (P := fun w => ∃ b, w.budget run_id = some b ∧ claim ∈ b.claims)
    (Q := fun w => ∃ b, w.budget run_id = some b ∧ b.Accepts claim) ?_ ?_ ⟨budget, hw, hc⟩
  · obtain ⟨v, hv, hvw, accepted, hget, haccepts⟩ := hsince
    exact ⟨v, accepted, hv, hvw, hget, haccepts⟩
  · rintro i hi ⟨b, hb, -⟩
    simp [initial_budget hi] at hb
  · rintro w a - - ⟨b, hb, hmem⟩
    rcases step_budget w a run_id with hsame | ⟨budget', last, hget, hclaimed⟩
    · exact .inl ⟨b, hsame ▸ hb, hmem⟩
    · obtain rfl : budget' = b := by simpa [hget] using hb
      rw [hclaimed.claims, mem_append, mem_singleton] at hmem
      rcases hmem with hold | rfl
      · refine .inl ?_
        cases hbefore : w.budget run_id with
        | none => simp [hbefore] at hold
        | some b => exact ⟨b, rfl, by simpa [hbefore] using hold⟩
      · exact .inr ⟨budget', hget, hclaimed.accepts⟩

end

-- The boundary

theorem capture_ok {boundary : RunBudgetBoundary} (h : w.capture run_id operation_id attempt_id = .ok boundary) :
    ∃ budget resource, w.budget run_id = some budget ∧ w.approved run_id = .ok resource ∧
      budget.maximum resource = .ok boundary.maximum ∧
      budget.deadline resource = .ok boundary.deadline ∧
      boundary.started_at = budget.started_at ∧ boundary.claim_count = budget.claims.length ∧
      boundary.owns_expected_claim = budget.owns operation_id attempt_id := by
  simp only [World.capture, captureRunBudgetBoundary, readBudget, bind_ok, need_ok, pure_ok] at h
  obtain ⟨run, hrun, budget, ⟨rows, hrows, hget⟩, resource, hresource, maximum, hmaximum, deadline,
    hdeadline, rfl⟩ := h
  obtain rfl := World.run_id_of_ok hrun
  refine ⟨budget, resource, by simp [World.budget, hrows, hget], ?_, hmaximum, hdeadline, rfl, rfl, rfl⟩
  simp [World.approved, hrun, hresource]

theorem readBudget_of {run : RunDocument} (hrun : w.run run_id = .ok run)
    (hb : w.budget run_id = some budget) : readBudget w.budgets run.id = .ok budget := by
  obtain rfl := World.run_id_of_ok hrun
  simp only [World.budget, Option.bind_eq_some_iff] at hb
  obtain ⟨rows, hrows, hget⟩ := hb
  simp [readBudget, hrows, hget, need]

theorem run_of_approved (h : w.approved run_id = .ok resource) :
    ∃ run, w.run run_id = .ok run ∧ approvedResource run = .ok resource := by
  simpa only [World.approved, bind_ok] using h

theorem boundary_agrees (h : w.capture run_id operation_id attempt_id = .ok boundary)
    (hbudget : w'.budget run_id = w.budget run_id) (happroved : w'.approved run_id = w.approved run_id)
    (now : Reading) : (boundary.owns_expected_claim = true → boundary.assertCurrentOrNewAdmissionAllowed now =
        w'.current run_id operation_id attempt_id now) ∧
    (boundary.owns_expected_claim = false →
      boundary.assertCurrentOrNewAdmissionAllowed now = w'.admission run_id now) ∧
    boundary.assertNewAdmissionAllowed now = w'.admission run_id now := by
  obtain ⟨budget, resource, hb, hresource, hmaximum, hdeadline, hstarted, hcount, howns⟩ := capture_ok h
  obtain ⟨run, hrun, hrunresource⟩ := run_of_approved (happroved.trans hresource)
  have hread := readBudget_of hrun (hbudget.trans hb)
  refine ⟨?_, ?_, ?_⟩
  · intro hown
    have howned := howns.symm.trans hown
    simp [RunBudgetBoundary.assertCurrentOrNewAdmissionAllowed, World.current, currentProcess, hrun,
      hread, hrunresource, hmaximum, hdeadline, hstarted, hcount, hown, howned, ensure]
  · intro hown
    simp [RunBudgetBoundary.assertCurrentOrNewAdmissionAllowed, World.admission, admissionAllowed,
      hrun, hread, hrunresource, hmaximum, hdeadline, hstarted, hcount, hown]
  · simp [RunBudgetBoundary.assertNewAdmissionAllowed, World.admission, admissionAllowed, hrun, hread,
      hrunresource, hmaximum, hdeadline, hstarted, hcount]

-- The budget of a run

/-- A refused claim leaves everything, and an accepted one is in a ledger that is within its bounds. -/
def World.ClaimSettled (w : World) (run_id operation_id attempt_id : String) (scope : Scope)
    (now : Reading) : Prop :=
  match w.claim run_id operation_id attempt_id scope now with
  | .error _ => system.step w (.claim run_id operation_id attempt_id scope now) = w
  | .ok (_, budget) =>
    (system.step w (.claim run_id operation_id attempt_id scope now)).budget run_id = some budget ∧
      budget.claims.length ≤ budget.max_total_attempts ∧
      ∃ claim ∈ budget.claims,
        w.identity run_id operation_id attempt_id scope = .ok claim.toClaimIdentity ∧
        (w.budget run_id = some budget ∨
          now = some claim.claimed_at ∧ Claimed (w.budget run_id) budget claim)

theorem claim_settled (h : system.Reach free w) (run_id operation_id attempt_id : String)
    (scope : Scope) (now : Reading) : w.ClaimSettled run_id operation_id attempt_id scope now := by
  unfold World.ClaimSettled
  split
  case h_1 e he => simp [system, World.step, he]
  case h_2 table budget hclaim =>
    have hstep : system.step w (.claim run_id operation_id attempt_id scope now) =
        { w with budgets := some table } := by simp [system, World.step, hclaim]
    obtain ⟨rows, claim, hrows, hid, ⟨rfl, hget, hmem⟩ | ⟨rfl, hnow, hclaimed⟩⟩ := World.claim_ok hclaim
    · refine ⟨?_, (reach_wellKept h hget).count, claim, hmem, hid, .inl hget⟩
      simpa [hstep, World.budget, hrows] using hget
    · refine ⟨by simp [hstep, World.budget], hclaimed.accepts.count, claim, ?_, hid, .inr ⟨hnow, hclaimed⟩⟩
      simp [hclaimed.claims]

/-- A run's process budget is never exceeded and never refunded. -/
theorem budget_kept (h : system.Reach free w) : (∀ run_id budget, w.budget run_id = some budget →
      budget.WellKept ∧
      (∀ w', system.Path free w w' → ∃ budget', w'.budget run_id = some budget' ∧ budget.Continues budget') ∧
      ∀ claim ∈ budget.claims, ∃ v accepted, system.Reach free v ∧
        system.Path free v w ∧ v.budget run_id = some accepted ∧ accepted.Accepts claim) ∧
    (∀ run_id operation_id attempt_id scope now, w.ClaimSettled run_id operation_id attempt_id scope now) ∧
    ∀ run_id operation_id attempt_id boundary, w.capture run_id operation_id attempt_id = .ok boundary →
      ∀ w', system.Path free w w' → w'.budget run_id = w.budget run_id →
        w'.approved run_id = w.approved run_id → ∀ now, (boundary.owns_expected_claim = true →
          boundary.assertCurrentOrNewAdmissionAllowed now = w'.current run_id operation_id attempt_id now) ∧
        (boundary.owns_expected_claim = false →
          boundary.assertCurrentOrNewAdmissionAllowed now = w'.admission run_id now) ∧
        boundary.assertNewAdmissionAllowed now = w'.admission run_id now := by
  refine ⟨?_, ?_, ?_⟩
  · intro run_id budget hw
    exact ⟨reach_wellKept h hw, fun w' hp => path_continues hp hw, fun claim hc => reach_accepted h hw hc⟩
  · exact claim_settled h
  · intro run_id operation_id attempt_id boundary hcapture w' _ hbudget happroved now
    exact boundary_agrees hcapture hbudget happroved now

namespace Sample

def narrow : BudgetResource := ⟨"narrow", some 2, some 60⟩

def run : RunDocument where
  id := "r1"
  plans := [⟨1, "wide"⟩, ⟨2, "narrow"⟩]
  active_plan_revision := some 1
  budgets := [⟨"wide", some 5, some 100⟩, narrow]

def world : World where
  budgets := some .empty
  operations := [⟨"o1", "r1", "t1", false⟩]
  runs := [run]

/-- A writer, a check after a narrower approval, and a claim beyond it. -/
def actions : List Action := [
  .claim "r1" "o1" "a1" .writer (some 10),
  .approve { run with active_plan_revision := some 2 },
  .claim "r1" "o1" "a2" .check (some 20),
  .claim "r1" "o1" "a3" .reviewer (some 30)]

def after : World := system.run world actions

theorem after_reach : system.Reach free after := ⟨world, .inr rfl, .of_free_run⟩

end Sample

open Sample (after)

theorem budget_kept_sample : ∃ budget boundary, after.budget "r1" = some budget ∧ budget.max_total_attempts = 2 ∧
    budget.claims.map (·.attempt_id) = ["a1", "a2"] ∧ budget.WellKept ∧
    after.capture "r1" "o1" "a1" = .ok boundary ∧
    boundary.assertCurrentOrNewAdmissionAllowed (some 69) = after.current "r1" "o1" "a1" (some 69) := by
  have hread : ((after.budget "r1").map fun budget =>
        (budget.max_total_attempts, budget.claims.map (·.attempt_id))) = some (2, ["a1", "a2"]) ∧
      ((after.capture "r1" "o1" "a1").toOption.map (·.owns_expected_claim)) = some true := by
    decide +kernel
  obtain ⟨budget, hbudget, heq⟩ := Option.map_eq_some_iff.mp hread.1
  obtain ⟨hmax, hclaims⟩ := Prod.mk.inj heq
  obtain ⟨boundary, hcaptured, hown⟩ := Option.map_eq_some_iff.mp hread.2
  have hcapture : after.capture "r1" "o1" "a1" = .ok boundary := by
    cases hc : after.capture "r1" "o1" "a1" <;> simp_all [Except.toOption]
  obtain ⟨hkept, -, hagrees⟩ := budget_kept Sample.after_reach
  refine ⟨budget, boundary, hbudget, hmax, hclaims, (hkept "r1" budget hbudget).1, hcapture, ?_⟩
  exact (hagrees "r1" "o1" "a1" boundary hcapture after .refl rfl rfl (some 69)).1 hown

end Karajan.Admission
