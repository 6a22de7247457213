import Karajan.Lib.Check
import Karajan.Lib.Dict
import Karajan.Lib.Runs
import Mathlib.Algebra.Order.Ring.Rat

/-!
# The process budget of a run

Writer, check and reviewer processes of a run share one number of attempts and
one duration, kept with the claims made on them in a ledger of the run. A
later approval may narrow the bounds of the first claim; it never widens them,
and nothing gives a claim back.
-/

namespace Karajan.Admission

open Check

inductive Scope
  | writer
  | check
  | reviewer
  deriving DecidableEq

abbrev Reading := Option Rat

structure ClaimIdentity where
  attempt_id : String
  scope : Scope
  (operation_id root_task_id : String)
  plan_revision : Nat
  budget_ref : String
  deriving DecidableEq

structure ProcessClaim extends ClaimIdentity where
  claimed_at : Rat

structure RunExecutionBudget where
  started_at : Rat
  (max_total_attempts max_duration_seconds : Int)
  claims : List ProcessClaim

abbrev Budgets := Option (Dict String RunExecutionBudget)

structure BudgetResource where
  id : String
  (max_total_attempts max_duration_seconds : Option Int)

structure PlanRow where
  plan_revision : Nat
  budget_ref : String

structure RunDocument where
  id : String
  plans : List PlanRow
  active_plan_revision : Option Nat
  budgets : List BudgetResource

/-- A row of the operations, of which `execution` says whether it has any. -/
structure OperationRow where
  (id run_id root_task_id : String)
  execution : Bool

inductive BudgetError
  | historyReconciliationRequired
  | clockInvalid
  | clockRegressed
  | claimConflict
  | claimRequired
  | attemptLimit
  | durationLimit
  /-- A row that is not there, or a bound that is no number. -/
  | exception

-- What the run allows

def activePlan (run : RunDocument) : Except BudgetError PlanRow :=
  need (run.plans.find? fun row => some row.plan_revision = run.active_plan_revision) .exception

def resourceOf (run : RunDocument) (plan : PlanRow) : Except BudgetError BudgetResource :=
  need (run.budgets.find? (·.id = plan.budget_ref)) .exception

def approvedResource (run : RunDocument) : Except BudgetError BudgetResource := do
  let plan ← activePlan run
  resourceOf run plan

def narrowed (stored : Int) (bound : Option Int) : Except BudgetError Int := do
  return min stored (← need bound .exception)

def readBudget (table : Budgets) (run_id : String) : Except BudgetError RunExecutionBudget := do
  let table ← need table .historyReconciliationRequired
  need (table.get? run_id) .historyReconciliationRequired

def assertClock (started_at : Rat) (now : Reading) : Except BudgetError Rat := do
  let time ← need now .clockRegressed
  ensure (started_at ≤ time) .clockRegressed
  return time

def RunExecutionBudget.maximum (budget : RunExecutionBudget) (resource : BudgetResource) :
    Except BudgetError Int :=
  narrowed budget.max_total_attempts resource.max_total_attempts

def RunExecutionBudget.deadline (budget : RunExecutionBudget) (resource : BudgetResource) :
    Except BudgetError Rat := do
  return budget.started_at + (← narrowed budget.max_duration_seconds resource.max_duration_seconds)

def RunExecutionBudget.owns (budget : RunExecutionBudget) (operation_id attempt_id : String) : Bool :=
  budget.claims.any fun row => row.attempt_id = attempt_id && row.operation_id = operation_id

-- The captured boundary

/-- A read of the ledger that later clocks are held against without reading again. -/
structure RunBudgetBoundary where
  (started_at deadline : Rat)
  maximum : Int
  claim_count : Nat
  owns_expected_claim : Bool

def RunBudgetBoundary.assertNewAdmissionAllowed (boundary : RunBudgetBoundary) (now : Reading) :
    Except BudgetError Rat := do
  let time ← assertClock boundary.started_at now
  ensure (boundary.claim_count < boundary.maximum) .attemptLimit
  ensure (time < boundary.deadline) .durationLimit
  return boundary.deadline

/-- A claim that exists stays legal where no new one would be granted. -/
def RunBudgetBoundary.assertCurrentOrNewAdmissionAllowed (boundary : RunBudgetBoundary)
    (now : Reading) : Except BudgetError Rat := do
  let time ← assertClock boundary.started_at now
  if boundary.owns_expected_claim then
    ensure (boundary.claim_count ≤ boundary.maximum) .attemptLimit
  else
    ensure (boundary.claim_count < boundary.maximum) .attemptLimit
  ensure (time < boundary.deadline) .durationLimit
  return boundary.deadline

def captureRunBudgetBoundary (table : Budgets) (run : RunDocument)
    (operation_id attempt_id : String) : Except BudgetError RunBudgetBoundary := do
  let budget ← readBudget table run.id
  let resource ← approvedResource run
  let maximum ← budget.maximum resource
  let deadline ← budget.deadline resource
  return {
    started_at := budget.started_at
    deadline := deadline
    maximum := maximum
    claim_count := budget.claims.length
    owns_expected_claim := budget.owns operation_id attempt_id }

-- Claims and checks

def claimIdentity (plan : PlanRow) (operation : OperationRow) (attempt_id : String) (scope : Scope) :
    ClaimIdentity where
  attempt_id := attempt_id
  scope := scope
  operation_id := operation.id
  root_task_id := operation.root_task_id
  plan_revision := plan.plan_revision
  budget_ref := plan.budget_ref

/-- The stored ledger, or the one a first writer starts where nothing was executed before. -/
def openBudget (table : Dict String RunExecutionBudget) (operations : List OperationRow)
    (run_id : String) (resource : BudgetResource) (scope : Scope) (time : Rat) :
    Except BudgetError RunExecutionBudget :=
  match table.get? run_id with
  | some budget => return budget
  | none => do
    ensure (scope = .writer && !operations.any fun row => row.run_id = run_id && row.execution)
      .historyReconciliationRequired
    -- A bound that is no number is stored as it is, and the first comparison with it fails.
    let attempts ← need resource.max_total_attempts .exception
    let seconds ← need resource.max_duration_seconds .exception
    return {
      started_at := time
      max_total_attempts := attempts
      max_duration_seconds := seconds
      claims := [] }

def claimProcess (table : Budgets) (operations : List OperationRow) (run : RunDocument)
    (operation : OperationRow) (attempt_id : String) (scope : Scope) (now : Reading) :
    Except BudgetError (Dict String RunExecutionBudget × RunExecutionBudget) := do
  let table ← need table .historyReconciliationRequired
  let time ← need now .clockInvalid
  let plan ← activePlan run
  let resource ← resourceOf run plan
  let identity := claimIdentity plan operation attempt_id scope
  let budget ← openBudget table operations run.id resource scope time
  match budget.claims.find? (·.attempt_id = attempt_id) with
  | some previous => do
    ensure (previous.toClaimIdentity = identity) .claimConflict
    return (table, budget)
  | none => do
    let attempts ← narrowed budget.max_total_attempts resource.max_total_attempts
    let seconds ← narrowed budget.max_duration_seconds resource.max_duration_seconds
    ensure (budget.started_at ≤ time) .clockRegressed
    ensure (budget.claims.length < attempts) .attemptLimit
    ensure (time < budget.started_at + seconds) .durationLimit
    let budget : RunExecutionBudget := {
      started_at := budget.started_at
      max_total_attempts := attempts
      max_duration_seconds := seconds
      claims := budget.claims ++ [{ identity with claimed_at := time }] }
    return (table.put run.id budget, budget)

def currentProcess (table : Budgets) (run : RunDocument) (operation_id attempt_id : String)
    (now : Reading) : Except BudgetError Rat := do
  let budget ← readBudget table run.id
  let time ← assertClock budget.started_at now
  ensure (budget.owns operation_id attempt_id) .claimRequired
  let resource ← approvedResource run
  let maximum ← budget.maximum resource
  let deadline ← budget.deadline resource
  ensure (budget.claims.length ≤ maximum) .attemptLimit
  ensure (time < deadline) .durationLimit
  return deadline

def admissionAllowed (table : Budgets) (run : RunDocument) (now : Reading) : Except BudgetError Rat := do
  let budget ← readBudget table run.id
  let time ← assertClock budget.started_at now
  let resource ← approvedResource run
  let maximum ← budget.maximum resource
  let deadline ← budget.deadline resource
  ensure (budget.claims.length < maximum) .attemptLimit
  ensure (time < deadline) .durationLimit
  return deadline

end Karajan.Admission
