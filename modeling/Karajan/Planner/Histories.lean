import Karajan.Planner.Lineage

/-!
# Histories of planning

Commands follow one another on one database. Each is answered once: a command
that has a record is answered by it and changes nothing, and one that is
rejected changes no run.
-/

namespace Karajan.Planner

open List Dict Check
variable {L : PlannerLibrary}

def planner (L : PlannerLibrary) : System Database Call where
  initial db := db = ⟨.empty, .empty, []⟩
  step db call := (perform L db call).2

-- Steps

/-- A run as it is created: within its own ceiling, in its first term, with nothing in it. -/
structure Created (L : Library) (run : Run) : Prop where
  within : Within L run.authorization_ceiling.base run.authorization_ceiling.base
  term : run.commander.term = 1
  empty : run.plans = [] ∧ run.approvals = [] ∧ run.handoffs = [] ∧ run.planning_intents = [] ∧
    run.active_plan_revision = none ∧ run.latest_plan_revision = 0

inductive Step (L : PlannerLibrary) (db : Database) (call : Call) : Except Fault Result → Database → Prop
  | unchanged (answer) (recorded : ∀ result, answer = .ok result →
      (∃ row, db.commands.get? (call.principal, call.key) = some row ∧ row.outcome = .ok result) ∨
      ∃ run_id run, db.runs.get? run_id = some run ∧ result = .run run) : Step L db call answer db
  | rejected {code row event} (new : db.commands.get? (call.principal, call.key) = none)
      (recorded : row.outcome = .error code) :
      Step L db call (.error (.rejected code))
        ⟨db.runs, db.commands.put (call.principal, call.key) row, db.events ++ [event]⟩
  | created {run row event} (new : db.commands.get? (call.principal, call.key) = none)
      (recorded : row.outcome = .ok (.run run)) (absent : db.runs.get? run.id = none)
      (created : Created L.toLibrary run) :
      Step L db call (.ok (.run run))
        ⟨db.runs.put run.id run, db.commands.put (call.principal, call.key) row, db.events ++ [event]⟩
  | moved {run_id run changed result row event}
      (new : db.commands.get? (call.principal, call.key) = none) (recorded : row.outcome = .ok result)
      (found : db.runs.get? run_id = some run) (move : Move L run changed) :
      Step L db call (.ok result)
        ⟨db.runs.put run_id (run.saved changed), db.commands.put (call.principal, call.key) row,
          db.events ++ [event]⟩
  | executed {run_id run changed} (found : db.runs.get? run_id = some run) (move : Move L run changed) :
      Step L db call (.ok (.run changed)) { db with runs := db.runs.put run_id (run.saved changed) }

theorem command_step {request : Request} {operation : Runs → Except Fault (Result × Runs)}
    (hop : ∀ result runs, operation db.runs = .ok (result, runs) →
      (∃ run, result = .run run ∧ runs = db.runs.put run.id run ∧ db.runs.get? run.id = none ∧
        Created L.toLibrary run) ∨
      ∃ run_id run changed, runs = db.runs.put run_id (run.saved changed) ∧
        db.runs.get? run_id = some run ∧ Move L run changed) :
    Step L db call (command L db request call.principal call.key call.now operation).1
      (command L db request call.principal call.key call.now operation).2 := by
  simp only [command]
  split
  · exact .unchanged _ (by simp)
  · cases hrow : db.commands.get? (call.principal, call.key) with
    | some row =>
      simp only
      split
      · exact .unchanged _ (by simp)
      · exact .unchanged _ fun result hresult => .inl ⟨row, hrow, mapError_ok.mp hresult⟩
    | none =>
      cases hrun : operation db.runs with
      | error fault =>
        cases fault with
        | crashed => exact .unchanged _ (by simp)
        | rejected code => exact .rejected hrow rfl
      | ok answered =>
        obtain ⟨result, runs⟩ := answered
        rcases hop result runs hrun with ⟨run, rfl, rfl, habsent, hcreated⟩ |
          ⟨run_id, run, changed, rfl, hfound, hmove⟩
        · exact .created hrow rfl habsent hcreated
        · exact .moved hrow rfl hfound hmove

theorem onRun_step (hop : ∀ run result changed, operation run = .ok (result, changed) → Move L run changed) :
    Step L db call (command L db request call.principal call.key call.now (onRun L run_id operation)).1
      (command L db request call.principal call.key call.now (onRun L run_id operation)).2 := by
  refine command_step fun result runs h => .inr ?_
  simp only [onRun, bind_ok, ensure_ok, need_ok, pair_ok] at h
  obtain ⟨_, -, run, hfound, ⟨result', changed⟩, hrun, -, rfl⟩ := h
  exact ⟨run_id, run, changed, rfl, hfound, hop run result' changed hrun⟩

theorem newRun_created (h : newRun L request projects principal identity = .ok run) :
    Created L.toLibrary run := by
  simp only [newRun, bind_ok, ensure_ok, pure_ok] at h
  obtain ⟨_, -, _, -, ceiling, hceiling, _, -, lead, -, _, hcreation, _, -, rfl⟩ := h
  have hbase : ceiling.base = request.terms.base := by
    simp only [resolvePolicy] at hceiling
    split at hceiling
    case h_1 a hterms =>
      cases hceiling
      simp [Ceiling.base, CreateTerms.base, hterms]
    case h_2 reference a hterms =>
      simp only [bind_ok, pure_ok] at hceiling
      obtain ⟨policy, -, _, -, rfl⟩ := hceiling
      simp [Ceiling.base, CreateTerms.base, hterms]
  simp only [validateCreation, bind_ok] at hcreation
  obtain ⟨_, -, _, -, _, -, u, hwithin, -⟩ := hcreation
  refine ⟨?_, rfl, rfl, rfl, rfl, rfl, rfl, rfl⟩
  rw [hbase]
  exact authorize_ok.mp (mapError_ok.mp hwithin)

theorem insertRun_ok (h : insertRun run conversation runs = .ok (result, runs')) :
    result = .run run ∧ runs' = runs.put run.id run ∧ runs.get? run.id = none := by
  simp only [insertRun, bind_ok, ensure_ok, pair_ok, Bool.not_eq_true', contains_eq_false] at h
  obtain ⟨_, habsent, _, -, rfl, rfl⟩ := h
  exact ⟨rfl, rfl, habsent⟩

theorem answered_ok (h : answered L db request principal key = some (.ok result)) :
    ∃ row, db.commands.get? (principal, key) = some row ∧ row.outcome = .ok result := by
  simp only [answered] at h
  split at h
  · simp at h
  · simp only [Option.map_eq_some_iff] at h
    obtain ⟨row, hrow, hanswer⟩ := h
    split at hanswer
    · cases hanswer
    · exact ⟨row, hrow, mapError_ok.mp hanswer⟩

theorem execute_step : Step L db call (execute L db run_id intent_id execution_id binding_sha256 principal key).1
    (execute L db run_id intent_id execution_id binding_sha256 principal key).2 := by
  simp only [execute]
  split
  · exact .unchanged _ (by simp)
  case h_2 run hfound =>
    simp only [executed, bind_ok, need_ok] at hfound
    obtain ⟨_, -, hfound⟩ := hfound
    split
    · exact .unchanged _ (by simp)
    · exact .unchanged _ fun result hresult => .inr ⟨run_id, run, hfound, (Except.ok.inj hresult).symm⟩
    case h_3 changed hexecution => exact .executed hfound (planningExecution_move hexecution)

theorem prepared_step {outside : Except Fault α} (hop : ∀ given, outside = .ok given →
      Step L db call (command L db request call.principal call.key call.now (operation given)).1
        (command L db request call.principal call.key call.now (operation given)).2) :
    Step L db call (prepared L db request call.principal call.key call.now outside operation).1
      (prepared L db request call.principal call.key call.now outside operation).2 := by
  simp only [prepared]
  cases hanswered : answered L db request call.principal call.key with
  | some answer =>
    exact .unchanged _ fun result hresult => .inl (answered_ok (hanswered.trans (congrArg some hresult)))
  | none =>
    cases houtside : outside with
    | error fault => exact .unchanged _ (by simp)
    | ok given => exact hop given houtside

theorem perform_step (call : Call) : Step L db call (perform L db call).1 (perform L db call).2 := by
  cases haction : call.action with
  | create request conversation_id projects conversation identity =>
    simp only [perform, haction]
    refine prepared_step fun run hrun => command_step fun result runs h => ?_
    obtain ⟨projects, -, hnew⟩ := bind_ok.mp hrun
    obtain ⟨rfl, rfl, habsent⟩ := insertRun_ok h
    exact .inl ⟨run, rfl, rfl, habsent, newRun_created hnew⟩
  | planningIntent =>
    simp only [perform, haction]
    exact onRun_step fun _ _ _ h => planningIntent_move h
  | attachReceipt =>
    simp only [perform, haction]
    exact prepared_step fun _ _ => onRun_step fun _ _ _ h => attachReceipt_move h
  | submitPlan =>
    simp only [perform, haction]
    exact onRun_step fun _ _ _ h => submitPlan_move h
  | approvePlan =>
    simp only [perform, haction]
    exact onRun_step fun _ _ _ h => approvePlan_move h
  | proposeHandoff =>
    simp only [perform, haction]
    exact onRun_step fun _ _ _ h => proposeHandoff_move h
  | decideHandoff =>
    simp only [perform, haction]
    exact onRun_step fun _ _ _ h => decideHandoff_move h
  | planningExecution =>
    simp only [perform, haction]
    exact execute_step
  | interrupted =>
    simp only [perform, haction]
    exact .unchanged _ (by simp)

-- Continuing

structure RunContinues (run later : Run) : Prop where
  identity : later.id = run.id ∧ later.owner = run.owner
  ceiling : later.authorization_ceiling = run.authorization_ceiling ∧
    later.configuration_snapshot = run.configuration_snapshot
  plans : run.plans <+: later.plans
  term : run.commander.term ≤ later.commander.term
  approvals : ∃ more, later.approvals = run.approvals ++ more ∧
    ∀ a ∈ more, run.commander.term ≤ a.term

theorem RunContinues.refl (run : Run) : RunContinues run run :=
  ⟨⟨rfl, rfl⟩, ⟨rfl, rfl⟩, prefix_refl _, le_refl _, [], by simp, by simp⟩

theorem RunContinues.trans (h : RunContinues r s) (h' : RunContinues s t) : RunContinues r t := by
  obtain ⟨more, hmore, hterm⟩ := h.approvals
  obtain ⟨more', hmore', hterm'⟩ := h'.approvals
  refine ⟨⟨h'.identity.1.trans h.identity.1, h'.identity.2.trans h.identity.2⟩,
    ⟨h'.ceiling.1.trans h.ceiling.1, h'.ceiling.2.trans h.ceiling.2⟩, h.plans.trans h'.plans,
    h.term.trans h'.term, more ++ more', by simp [hmore', hmore], fun a ha => ?_⟩
  rcases List.mem_append.mp ha with ha | ha
  · exact hterm a ha
  · exact h.term.trans (hterm' a ha)

theorem RunContinues.frame (hid : later.id = run.id) (howner : later.owner = run.owner)
    (hceiling : later.authorization_ceiling = run.authorization_ceiling)
    (hsnapshot : later.configuration_snapshot = run.configuration_snapshot)
    (hplans : run.plans <+: later.plans) (hterm : run.commander.term ≤ later.commander.term)
    (happrovals : later.approvals = run.approvals) : RunContinues run later :=
  ⟨⟨hid, howner⟩, ⟨hceiling, hsnapshot⟩, hplans, hterm, [], by simp [happrovals], by simp⟩

theorem Move.continues (h : Move L run changed) : RunContinues run (run.saved changed) := by
  cases h with
  | intent | receipt | proposal => exact .frame rfl rfl rfl rfl (prefix_refl _) (le_refl _) rfl
  | plan => exact .frame rfl rfl rfl rfl (prefix_append _ _) (le_refl _) rfl
  | @approval a p approves =>
    refine ⟨⟨rfl, rfl⟩, ⟨rfl, rfl⟩, prefix_refl _, le_refl _, [a], rfl, fun b hb => ?_⟩
    obtain rfl := List.mem_singleton.mp hb
    exact approves.current.ge
  | @decision handoff approve =>
    refine .frame rfl rfl rfl rfl (prefix_refl _) ?_ rfl
    cases approve <;> simp [Run.saved, Run.decided]

/-- What a later state of the database has of an earlier one: every run, continued, and every
answer as it was given. -/
structure Continues (db later : Database) : Prop where
  runs : ∀ run_id run, db.runs.get? run_id = some run →
    ∃ run', later.runs.get? run_id = some run' ∧ RunContinues run run'
  commands : ∀ key row, db.commands.get? key = some row → later.commands.get? key = some row

theorem Continues.refl (db : Database) : Continues db db := ⟨fun _ run h => ⟨run, h, .refl run⟩, fun _ _ h => h⟩

theorem Continues.trans (h : Continues a b) (h' : Continues b c) : Continues a c := by
  refine ⟨fun run_id run hr => ?_, fun key row hk => h'.commands key row (h.commands key row hk)⟩
  obtain ⟨run', hr', hc⟩ := h.runs run_id run hr
  obtain ⟨run'', hr'', hc'⟩ := h'.runs run_id run' hr'
  exact ⟨run'', hr'', hc.trans hc'⟩

theorem runs_moved {runs : Runs} (hfound : runs.get? run_id = some run) (hm : Move L run changed)
    (h : runs.get? run_id' = some run') :
    ∃ later, (runs.put run_id (run.saved changed)).get? run_id' = some later ∧
      RunContinues run' later := by
  rw [get?_put]
  split
  case isTrue heq =>
    subst heq
    cases hfound.symm.trans h
    exact ⟨_, rfl, hm.continues⟩
  · exact ⟨run', h, .refl run'⟩

theorem Step.continues (h : Step L db call answer db') : Continues db db' := by
  cases h with
  | unchanged => exact .refl db
  | rejected new => exact ⟨fun _ run h => ⟨run, h, .refl run⟩, fun _ _ h => get?_put_new new h⟩
  | created new recorded absent created =>
    exact ⟨fun _ run h => ⟨run, get?_put_new absent h, .refl run⟩, fun _ _ h => get?_put_new new h⟩
  | moved new recorded found move =>
    exact ⟨fun _ _ h => runs_moved found move h, fun _ _ h => get?_put_new new h⟩
  | executed found move => exact ⟨fun _ _ h => runs_moved found move h, fun _ _ h => h⟩

-- Every history

theorem Created.lineage (h : Created L.toLibrary run) : Lineage L.toLibrary run := by
  obtain ⟨hplans, happrovals, hhandoffs, -, hactive, hlatest⟩ := h.empty
  exact {
    revisions := by simp [hplans, hlatest]
    plans := by simp [hplans]
    approvals := by simp [happrovals]
    increasing := by simp [happrovals]
    active := by simp [hactive, happrovals]
    pending := by simp [hhandoffs]
    term := by simp [h.term, hhandoffs] }

def Lawful (L : PlannerLibrary) (db : Database) : Prop :=
  ∀ run_id run, db.runs.get? run_id = some run → Lineage L.toLibrary run

theorem lawful_moved (h : Lawful L db) (hfound : db.runs.get? run_id = some run) (hm : Move L run changed)
    (hput : (db.runs.put run_id (run.saved changed)).get? run_id' = some run') : Lineage L.toLibrary run' := by
  rcases of_put hput with ⟨-, rfl⟩ | ⟨-, hput⟩
  · exact ((h run_id run hfound).move hm).saved
  · exact h run_id' run' hput

theorem Step.lawful (h : Step L db call answer db') (hl : Lawful L db) : Lawful L db' := by
  intro run_id run hrun
  cases h with
  | unchanged | rejected => exact hl run_id run hrun
  | created new recorded absent created =>
    rcases of_put hrun with ⟨-, rfl⟩ | ⟨-, hrun⟩
    · exact created.lineage
    · exact hl run_id run hrun
  | moved new recorded found move | executed found move => exact lawful_moved hl found move hrun

theorem Step.rejected_runs (h : Step L db call (.error fault) db') : db'.runs = db.runs := by
  cases h with
  | unchanged | rejected => rfl

def Call.request? (call : Call) : Option Request :=
  match call.action with
  | .create request conversation_id _ _ _ => some (.create request conversation_id)
  | .planningIntent run_id term _ => some (.planningIntent run_id term)
  | .attachReceipt run_id intent_id receipt_ref _ => some (.attachReceipt run_id intent_id receipt_ref)
  | .submitPlan run_id request _ => some (.submitPlan run_id request)
  | .approvePlan run_id request _ => some (.approvePlan run_id request)
  | .proposeHandoff run_id request _ _ => some (.proposeHandoff run_id request)
  | .decideHandoff run_id request _ => some (.decideHandoff run_id request)
  | .planningExecution _ _ _ _ | .interrupted => none

/-- A command that has a record is answered by it, or refused, and changes nothing. -/
def Replays (L : PlannerLibrary) (db : Database) (call : Call) : Prop :=
  ∀ request row, call.request? = some request →
    db.commands.get? (call.principal, call.key) = some row →
    (perform L db call).2 = db ∧ ((perform L db call).1 = row.outcome.mapError .rejected ∨
      (perform L db call).1 = .error (.rejected "IDEMPOTENCY_CONFLICT") ∨
      (perform L db call).1 = .error (.rejected "COMMAND_IDENTITY_INVALID"))

theorem command_replays (hrow : db.commands.get? (principal, key) = some row) :
    (command L db request principal key now operation).2 = db ∧
      ((command L db request principal key now operation).1 = row.outcome.mapError .rejected ∨
      (command L db request principal key now operation).1 = .error (.rejected "IDEMPOTENCY_CONFLICT") ∨
      (command L db request principal key now operation).1 = .error (.rejected "COMMAND_IDENTITY_INVALID")) := by
  simp only [command, hrow]
  split
  · exact ⟨rfl, .inr (.inr rfl)⟩
  · split
    · exact ⟨rfl, .inr (.inl rfl)⟩
    · exact ⟨rfl, .inl rfl⟩

theorem prepared_replays {outside : Except Fault α} (hrow : db.commands.get? (principal, key) = some row) :
    (prepared L db request principal key now outside operation).2 = db ∧
      ((prepared L db request principal key now outside operation).1 = row.outcome.mapError .rejected ∨
      (prepared L db request principal key now outside operation).1 = .error (.rejected "IDEMPOTENCY_CONFLICT") ∨
      (prepared L db request principal key now outside operation).1 =
        .error (.rejected "COMMAND_IDENTITY_INVALID")) := by
  simp only [prepared, answered, hrow, Option.map_some]
  split
  case h_2 hnone =>
    split at hnone <;> cases hnone
  case h_1 answer hanswer =>
    refine ⟨rfl, ?_⟩
    split at hanswer
    · exact .inr (.inr (Option.some.inj hanswer).symm)
    · split at hanswer
      · exact .inr (.inl (Option.some.inj hanswer).symm)
      · exact .inl (Option.some.inj hanswer).symm

theorem replays (call : Call) : Replays L db call := by
  intro request row hrequest hrow
  cases haction : call.action with
  | create | attachReceipt =>
    simp only [perform, haction]
    exact prepared_replays hrow
  | planningExecution | interrupted => simp [Call.request?, haction] at hrequest
  | planningIntent | submitPlan | approvePlan | proposeHandoff | decideHandoff =>
    simp only [perform, haction]
    exact command_replays hrow

theorem approved_impact (h : Lineage L.toLibrary run) (ha : Approves run a p) :
    p.plan_revision = run.latest_plan_revision ∧
      p.impact = impactOf p.plan (run.activePlan.map (·.plan)) := by
  have hlatest := h.last ha.last
  have hfresh : run.active_plan_revision ≠ some run.latest_plan_revision := hlatest ▸ ha.fresh
  have himpact := (h.plans p (mem_of_getLast? ha.last)).impact
  rw [hlatest, h.activeBefore_latest hfresh] at himpact
  exact ⟨hlatest, himpact⟩

/-- Over every sequence of commands: each run keeps one lawful line of plans, each step is a move
of one run that was checked for it, an approval is of the latest plan of the current term with its
impact on the plan that was active, what was stored stays, and a rejection changes no run. -/
theorem lineage_kept (L : PlannerLibrary) (h : (planner L).Reach System.free db) : Lawful L db ∧
    (∀ call, Step L db call (perform L db call).1 (perform L db call).2 ∧ Replays L db call ∧
      ∀ fault, (perform L db call).1 = .error fault → (perform L db call).2.runs = db.runs) ∧
    (∀ run_id run a p, db.runs.get? run_id = some run → Approves run a p →
      p.plan_revision = run.latest_plan_revision ∧
        p.impact = impactOf p.plan (run.activePlan.map (·.plan))) ∧
    ∀ later, (planner L).Path System.free db later → Continues db later := by
  have hlawful : Lawful L db := by
    refine h.invariant (fun db hdb => ?_) (fun db call hl _ => (perform_step call).lawful hl)
    subst hdb
    intro run_id run hrun
    simp at hrun
  refine ⟨hlawful, fun call => ⟨perform_step call, replays call, fun fault hfault => ?_⟩,
    fun run_id run a p hrun ha => approved_impact (hlawful run_id run hrun) ha, fun later hp => ?_⟩
  · have hstep : Step L db call (perform L db call).1 (perform L db call).2 := perform_step call
    rw [hfault] at hstep
    exact hstep.rejected_runs
  · exact hp.relates Continues.refl (fun _ _ _ => Continues.trans) fun _ call _ =>
      (perform_step call).continues

-- A sample

namespace PlanningSample

def library : PlannerLibrary where
  toLibrary := ConfinedSample.library
  digest _ := "x"

def authorization : Authorization where
  profile_refs := [⟨"p", 1⟩]
  read_paths := ["s"]
  write_paths := ["s"]
  budget_ref := "b"
  checks := ["independent_review"]
  delivery := .none
  target_branch := "m"

def configuration : Configuration where
  rulebook := { ConfinedSample.rulebook with
    profile_groups := .ofList [("commander_qualified", [⟨"p", 1⟩])] }
  budgets := []
  approved_profile_refs := [⟨"p", 1⟩]

def projects : Projects where
  project := ⟨"j", 1, "x", "m", true, none⟩
  exported_revision := 1
  configuration := configuration
  policy := .error "NONE"

def create : CreateRun where
  project_id := "j"
  project_revision := 1
  configuration_digest := "x"
  participants := [⟨"c", ⟨"p", 1⟩, .lead⟩]
  terms := .v1 authorization

def receipt : PlanningReceipt where
  receipt_ref := "f"
  authority_revision := "1"
  run_id := "r"
  intent_id := "i"
  term := 1
  principal := "c"
  profile := ⟨"p", 1⟩
  budget_ref := none
  state := .admitted
  provenance := .fixture

def task (id : String) (depends_on : List String) : PlanTask where
  id := id
  revision := 1
  role := .worker
  readiness := .ready
  complexity := .T1
  risk := .standard
  paths := ["s"]
  depends_on := depends_on
  acceptance := ["a"]
  required := true

def submit : SubmitPlan where
  term := 1
  intent_id := "i"
  expected_plan_revision := 0
  plan := .v1 ⟨"p", authorization, [task "t" [], task "u" ["t"]]⟩

/-- A run is created and planned, and its plan is approved; the last command is rejected. -/
def calls : List Call := [⟨.create create none (.ok projects) none "r", "o", "1", 0⟩,
    ⟨.planningIntent "r" 1 "i", "c", "2", 0⟩,
    ⟨.attachReceipt "r" "i" "f" (.ok receipt), "o", "3", 0⟩,
    ⟨.submitPlan "r" submit ⟨none, none⟩, "c", "4", 0⟩,
    ⟨.approvePlan "r" ⟨1, 1, "x", "x", "x", none⟩ "a", "o", "5", 0⟩,
    ⟨.approvePlan "r" ⟨1, 1, "x", "x", "x", none⟩ "a", "o", "6", 0⟩]

def final : Database := (planner library).run ⟨.empty, .empty, []⟩ calls

theorem final_run : (final.runs.get? "r").map (fun run =>
      (run.latest_plan_revision, run.active_plan_revision, run.plans.length)) = some (1, some 1, 1) ∧
    (final.events.map EventRow.reason) = [none, none, none, none, none, some "PLAN_ALREADY_APPROVED"] := by
  decide +kernel

end PlanningSample

open PlanningSample in
theorem lineage_kept_sample : ∃ run, final.runs.get? "r" = some run ∧ run.latest_plan_revision = 1 ∧
    Lineage library.toLibrary run ∧
      Step library final ⟨.interrupted, "o", "7", 0⟩ (.error .crashed) final := by
  obtain ⟨hlawful, hsteps, -, -⟩ := lineage_kept library
    (show (planner library).Reach System.free final from ⟨_, rfl, .of_free_run⟩)
  obtain ⟨run, hrun, hfacts⟩ := Option.map_eq_some_iff.mp final_run.1
  exact ⟨run, hrun, congrArg Prod.fst hfacts, hlawful "r" run hrun, (hsteps _).1⟩

end Karajan.Planner
