import Karajan.Scheduling.TaskTable
import Karajan.Scheduling.Delegation

/-!
# Claimed tasks are frozen

A task that was claimed keeps its binding, its edges and everything it was
created with. The guard of an edit looks at the state `claimed` alone: a task
whose execution is unknown, completed or failed can still be bound and
rewired, so the work stays as it is while no decision does that to a task with
a claim.
-/

namespace Karajan.Scheduling

open Option Dict Check
variable {P : Platform} {db : Db} {id : String} {ctx : PlanContext}

structure SameWork (old new : Task) : Prop where
  role_alias : new.role_alias = old.role_alias
  role_ref : new.role_ref = old.role_ref
  execution_kind_ref : new.execution_kind_ref = old.execution_kind_ref
  model_ref : new.model_ref = old.model_ref
  tool_refs : new.tool_refs = old.tool_refs
  inputs : new.inputs = old.inputs
  depends_on : new.depends_on = old.depends_on
  write_zone : new.write_zone = old.write_zone
  path_scope : new.path_scope = old.path_scope

theorem SameWork.refl (task : Task) : SameWork task task := ⟨rfl, rfl, rfl, rfl, rfl, rfl, rfl, rfl, rfl⟩

theorem SameWork.trans (h : SameWork a b) (h' : SameWork b c) : SameWork a c where
  role_alias := h'.role_alias.trans h.role_alias
  role_ref := h'.role_ref.trans h.role_ref
  execution_kind_ref := h'.execution_kind_ref.trans h.execution_kind_ref
  model_ref := h'.model_ref.trans h.model_ref
  tool_refs := h'.tool_refs.trans h.tool_refs
  inputs := h'.inputs.trans h.inputs
  depends_on := h'.depends_on.trans h.depends_on
  write_zone := h'.write_zone.trans h.write_zone
  path_scope := h'.path_scope.trans h.path_scope

-- The edits that repeat what a task has

/-- An action binds or rewires a task as it is bound and wired already. -/
def repeatsWork (grants : Dict String Grant) (grant_id : String) (task : Task) (action : ParsedAction) : Bool :=
  match action.name with
  | .bindRole =>
    ((field action.fields "role_alias").str?).all fun alias_id =>
      ((grants.get? grant_id).bind fun grant => grant.role_refs.get? alias_id).all fun role_ref =>
        task.role_alias = some alias_id && task.role_ref = some role_ref
  | .setDependencies =>
    sortedSet (sorted (statedTexts (field action.fields "depends_on")) ++ task.inferred_depends_on) =
      task.depends_on
  | _ => true

/-- The actions of a decision leave alone the work of every task that has a
claim, unless they are refused: for a retired task, and in the state `claimed`. -/
def workLeft (db : Db) (submission : Submission) : Bool := submission.parsed.actions.all fun action =>
    (((field action.fields "task_id").str?).bind (db.task? submission.key)).all fun task =>
      task.claim_id.isNone || !task.live || task.state = .claimed ||
        repeatsWork (db.grants submission.key) submission.parsed.grant_id task action

def ClaimedLeft (P : Platform) (store : Store) (request : Request) : Prop :=
  decisionMeets P workLeft store request = true

instance : Decidable (ClaimedLeft P store request) :=
  inferInstanceAs (Decidable (decisionMeets P workLeft store request = true))

-- One decision

structure WorkKept (old new : Task) : Prop extends Redecided old new where
  work : SameWork old new

theorem WorkKept.refl (task : Task) : WorkKept task task := ⟨.refl task, .refl task⟩

theorem retiredTask_kept (h : WorkKept old task) (ctx : PlanContext) (task_id : String) :
    WorkKept old (retiredTask P ctx task task_id) where
  toRedecided := h.toRedecided.trans (retiredTask_redecided P ctx task task_id)
  work := h.work.trans ⟨rfl, rfl, rfl, rfl, rfl, rfl, rfl, rfl, rfl⟩

theorem TaskEdit.kept (hgrant : grants.get? grant_id = some ctx.grant)
    (h : TaskEdit ctx working action id task edited) (hk : WorkKept old task)
    (hok : repeatsWork grants grant_id old action = true) : WorkKept old (revisedTask P task edited) := by
  refine ⟨hk.toRedecided.trans h.redecided, hk.work.trans ?_⟩
  cases h with
  | @bound alias_id role_ref name stated granted =>
    simp only [repeatsWork, name, stated, Json.str?, all_some, hgrant, bind_some,
      granted, Bool.and_eq_true, decide_eq_true_eq] at hok
    refine ⟨?_, ?_, rfl, rfl, rfl, rfl, rfl, rfl, rfl⟩
    · exact hok.1.symm.trans hk.work.role_alias.symm
    · exact hok.2.symm.trans hk.work.role_ref.symm
  | depended name stated =>
    simp only [repeatsWork, name, decide_eq_true_eq] at hok
    refine ⟨rfl, rfl, rfl, rfl, rfl, rfl, ?_, rfl, rfl⟩
    change sortedSet _ = task.depends_on
    rw [hk.work.depends_on, stated, hk.inferred_depends_on]
    exact hok
  | prioritized | dispatched => exact ⟨rfl, rfl, rfl, rfl, rfl, rfl, rfl, rfl, rfl⟩

theorem TaskEdit.unclaimed (h : TaskEdit ctx working action id task edited) :
    task.state ≠ .claimed ∨ ∀ grants grant_id old, repeatsWork grants grant_id old action = true := by
  cases h with
  | bound _ _ _ unclaimed | depended _ _ _ unclaimed => exact .inl unclaimed
  | prioritized name | dispatched name => exact .inr fun _ _ _ => by simp [repeatsWork, name]

theorem workLeft_repeats (hok : workLeft db submission = true)
    (hold : db.task? submission.key id = some old) (hclaim : old.claim_id ≠ none)
    (hm : action ∈ submission.parsed.actions) (stated : field action.fields "task_id" = .str id)
    (live : task.live = true) (hk : WorkKept old task) (edit : TaskEdit ctx working action id task edited) :
    repeatsWork (db.grants submission.key) submission.parsed.grant_id old action = true := by
  rcases edit.unclaimed with hunclaimed | hrepeats
  · have hstate := hk.state live
    have haction := List.all_eq_true.mp hok action hm
    simp only [stated, Json.str?, bind_some, hold, all_some, Bool.or_eq_true,
      isNone_iff_eq_none, hclaim, false_or, Bool.not_eq_true', decide_eq_true_eq,
      ← hstate, hunclaimed, or_false] at haction
    rcases haction with hretired | hrepeats
    · rw [← Task.live_congr hstate, live] at hretired; cases hretired
    · exact hrepeats
  · exact hrepeats _ _ _

theorem WorkSteps.kept (hgrant : (db.grants submission.key).get? submission.parsed.grant_id = some ctx.grant)
    (hok : workLeft db submission = true) (hold : db.task? submission.key id = some old)
    (hclaim : old.claim_id ≠ none) (hctx : ctx.tasks.get? id = some old)
    (h : WorkSteps P ctx submission.parsed.actions ctx.tasks working) :
    ∃ new, working.get? id = some new ∧ WorkKept old new := by
  induction h with
  | refl => exact ⟨old, hctx, .refl old⟩
  | tail _ hstep ih =>
    obtain ⟨task, hget, hk⟩ := ih
    cases hstep with
    | @edited id' _ _ _ listed stated found live edit =>
      by_cases hid : id' = id
      · subst hid
        rw [hget] at found; cases found
        have hrepeats := workLeft_repeats hok hold hclaim listed stated live hk edit
        exact ⟨_, get?_put_self, edit.kept hgrant hk hrepeats⟩
      · exact ⟨task, by rw [get?_put_of_ne hid, hget], hk⟩
    | added _ _ _ fresh =>
      exact ⟨task, get?_put_new fresh hget, hk⟩
    | @replaced _ _ _ _ replaced _ _ _ _ fresh _ found =>
      rw [get?_put_of_ne]
      · by_cases hid : replaced = id
        · subst hid
          rw [hget] at found; cases found
          exact ⟨_, get?_put_self, retiredTask_kept hk ctx _⟩
        · exact ⟨task, by rw [get?_put_of_ne hid, hget], hk⟩
      · rintro rfl
        rw [hget] at fresh; cases fresh

-- Every run

theorem Handled.same_work (h : Handled P old new) : SameWork old new := by
  cases h <;> exact ⟨rfl, rfl, rfl, rfl, rfl, rfl, rfl, rfl, rfl⟩

theorem serve_keeps_work (hok : ClaimedLeft P store request)
    (hold : store.db.task? key id = some old) (hclaim : old.claim_id ≠ none) :
    ∃ new, (store.serve P request).db.task? key id = some new ∧ SameWork old new ∧
      new.claim_id ≠ none := by
  have hmove := serve_table P store request key
  generalize (store.serve P request).db.task? key = table at hmove ⊢
  cases hmove with
  | same => exact ⟨old, hold, .refl old, hclaim⟩
  | @handled _ id' _ new found handled =>
    by_cases hid : id = id'
    · subst hid
      rw [hold] at found; cases found
      exact ⟨new, if_pos rfl, handled.same_work, handled.claim_id hclaim⟩
    · exact ⟨old, (if_neg hid).trans hold, .refl old, hclaim⟩
  | decided read planned =>
    have hmeets := decisionMeets_ok hok read planned
    cases (readSubmission_ok read).1
    obtain ⟨new, hnew, hk⟩ := planned.steps.kept (grantRow_ok.mp planned.granted).1 hmeets hold hclaim
      (planned.context.trans hold)
    exact ⟨new, hnew, hk.work, by rw [hk.claim_id]; exact hclaim⟩

/-- While no decision edits the work of a task that has a claim, the work of such
a task stays what it was handed out with, however the run goes on. -/
theorem claimed_frozen (h : (schedulingStore P).Path (ClaimedLeft P) store later) (key : RunKey)
    (hold : store.db.task? key id = some old) (hclaim : old.claim_id ≠ none) :
    ∃ new, later.db.task? key id = some new ∧ SameWork old new := by
  suffices hkept : ∃ new, later.db.task? key id = some new ∧ SameWork old new ∧
      new.claim_id ≠ none by
    obtain ⟨new, hnew, hwork, -⟩ := hkept
    exact ⟨new, hnew, hwork⟩
  induction h with
  | refl => exact ⟨old, hold, .refl old, hclaim⟩
  | step _ hok ih =>
    obtain ⟨middle, hmiddle, hwork, hclaimed⟩ := ih
    obtain ⟨new, hnew, hwork', hclaimed'⟩ := serve_keeps_work hok hmiddle hclaimed
    exact ⟨new, hnew, hwork.trans hwork', hclaimed'⟩

namespace Sample

def handedOut : List Request :=
  opened ++ [submit "1" 0 (expand "e" [task "1", task "2"] ["d1.1", "d1.2"]), claim "1" "d1.1"]

def rewire : Request := submit "2" 1 [.object [("action", .str "set_dependencies"), ("task_id", .str "d1.1"),
    ("depends_on", Json.ofTexts ["d1.2"])]]

def decideLater : List Request := [rewire, .createExpansion Sample.key "g" (expansion "f") 0,
    submit "3" 1 (expand "f" [successor "1" "d1.1"] ["d3.1"])]

def claimedEdges (store : Store) (task_id : String) : Option (Bool × List String) :=
  (store.db.task? Sample.key task_id).map fun task => (task.claim_id.isSome, task.depends_on)

end Sample

open Sample in
/-- A decision cannot rewire it as long as it is claimed, and can supersede it. -/
theorem claimed_frozen_handedOut :
    ∃ old new, (after handedOut).db.task? key "d1.1" = some old ∧
      (system.run (after handedOut) decideLater).db.task? key "d1.1" =
        some new ∧ SameWork old new ∧ new.state = .superseded := by
  have hpath : system.Path (ClaimedLeft platform) (after handedOut)
      (system.run (after handedOut) decideLater) :=
    .of_run (by decide +kernel)
  have hstate : ((system.run (after handedOut) decideLater).db.task?
      key "d1.1").map Task.state = some .superseded := by
    decide +kernel
  have hclaimed : claimedEdges (after handedOut) "d1.1" = some (true, []) := by
    decide +kernel
  obtain ⟨old, hold, hedges⟩ := map_eq_some_iff.mp hclaimed
  simp only [Prod.mk.injEq, isSome_iff_ne_none] at hedges
  obtain ⟨new, hnew, hsame⟩ := claimed_frozen hpath key hold hedges.1
  rw [hnew] at hstate
  exact ⟨old, new, hold, hnew, hsame, some.inj hstate⟩

open Sample in
/-- Once its execution completed, a decision rewires it. -/
theorem completed_rewired : ∃ store later, system.Reach System.free store ∧
      claimedEdges store "d1.1" = some (true, []) ∧
      later = system.run store [rewire] ∧
      claimedEdges later "d1.1" = some (true, ["d1.2"]) :=
  ⟨after (handedOut ++ [report "d1.1" "completed" user true]), _,
    after_reach _, by decide +kernel, rfl, by decide +kernel⟩

end Karajan.Scheduling

-- Tasks stay inside their grants

namespace Karajan.Scheduling

open Check

section
variable {P : Platform} {db : Db} {id : String}

structure InsideGrant (grant : Authority) (task : Task) : Prop where
  role : ∃ alias_id role_ref, task.role_alias = some alias_id ∧ task.role_ref = some role_ref ∧
    grant.role_refs.get? alias_id = some role_ref
  model : ∀ model_ref, task.model_ref = some model_ref → model_ref ∈ grant.model_refs
  tools : ∀ tool ∈ task.tool_refs, tool ∈ grant.tool_refs
  outcomes : ∀ outcome ∈ task.required_outcomes, outcome ∈ grant.required_outcomes
  read : containsScope grant.scope task.path_scope = true
  write : containsScope grant.write_scope [task.write_zone] = true

def InOwnGrant (grants : Dict String Grant) (task : Task) : Prop :=
  ∃ grant_id grant, task.grant_id = some grant_id ∧ grants.get? grant_id = some grant ∧
    InsideGrant grant.toAuthority task

theorem InsideGrant.of_fixed (h : InsideGrant grant old) (hfixed : TaskFixed old new)
    (hrole : ∃ alias_id role_ref, new.role_alias = some alias_id ∧ new.role_ref = some role_ref ∧
      grant.role_refs.get? alias_id = some role_ref) : InsideGrant grant new where
  role := hrole
  model := by
    rw [hfixed.model_ref]
    exact h.model
  tools := by
    rw [hfixed.tool_refs]
    exact h.tools
  outcomes := by
    rw [hfixed.required_outcomes]
    exact h.outcomes
  read := by
    rw [hfixed.path_scope]
    exact h.read
  write := by
    rw [hfixed.write_zone]
    exact h.write

theorem InOwnGrant.of_fixed (h : InOwnGrant grants old)
    (hfixed : TaskFixed old new) (halias : new.role_alias = old.role_alias)
    (hrole : new.role_ref = old.role_ref) : InOwnGrant grants new := by
  obtain ⟨grant_id, grant, hgrant, hget, hinside⟩ := h
  refine ⟨grant_id, grant, hfixed.grant_id.trans hgrant, hget, hinside.of_fixed hfixed ?_⟩
  rw [halias, hrole]
  exact hinside.role

theorem InOwnGrant.kept (h : InOwnGrant grants task)
    (hkept : GrantsKept grants grants') : InOwnGrant grants' task := by
  obtain ⟨grant_id, grant, hgrant, hget, hinside⟩ := h
  obtain ⟨grant', hget', hterms⟩ := hkept grant_id grant hget
  refine ⟨grant_id, grant', hgrant, hget', ?_⟩
  rw [read_terms Grant.toAuthority (fun _ => rfl) hterms]
  exact hinside

-- The role a decision binds

/-- The alias an action binds means in the grant of a task what it means in the
grant of the decision. -/
def sameRole (grants : Dict String Grant) (grant_id : String) (task : Task) (action : ParsedAction) : Bool :=
  ((field action.fields "role_alias").str?).all fun alias_id =>
    ((grants.get? grant_id).bind fun grant => grant.role_refs.get? alias_id).all fun role_ref =>
      (task.grant_id.bind grants.get?).all fun own => own.role_refs.get? alias_id = some role_ref

/-- Every role the decision binds is the one the grant of its task has under that
alias, unless binding is refused: for a retired task, and in the state `claimed`. -/
def bindsWithin (db : Db) (submission : Submission) : Bool := submission.parsed.actions.all fun action =>
    action.name ≠ .bindRole ||
      (((field action.fields "task_id").str?).bind (db.task? submission.key)).all fun task =>
        !task.live || task.state = .claimed ||
          sameRole (db.grants submission.key) submission.parsed.grant_id task action

/-- No decision binds a task to a role its own grant does not have under the alias. -/
def BindsWithin (P : Platform) (store : Store) (request : Request) : Prop :=
  decisionMeets P bindsWithin store request = true

instance : Decidable (BindsWithin P store request) :=
  inferInstanceAs (Decidable (decisionMeets P bindsWithin store request = true))

-- One decision

/-- A working task of a plan: it is inside its grant, and one that was not there
before belongs to the grant of the decision. -/
structure WorkInside (grants : Dict String Grant) (ctx : PlanContext) (id : String) (task : Task) :
    Prop where
  confined : InOwnGrant grants task
  created : ctx.tasks.get? id = none → task.grant_id = some ctx.grant.grant_id

theorem memberDocument_inside (h : AcceptedSpec ctx.grant.toAuthority ctx.tasks ctx.producers fields spec) :
    InsideGrant ctx.grant.toAuthority (memberDocument P ctx expansion spec id) :=
  { h with
    role := ⟨spec.role_alias, spec.role_ref, rfl, rfl, h.role⟩
    outcomes := h.permitted }

theorem retiredTask_inside (h : WorkInside grants ctx id task) (task_id : String) :
    WorkInside grants ctx id (retiredTask P ctx task task_id) where
  confined := h.confined.of_fixed (retiredTask_redecided P ctx task task_id).toTaskFixed rfl rfl
  created := h.created

theorem TaskEdit.inside (hgrant : grants.get? grant_id = some ctx.grant)
    (hnamed : ctx.grant.grant_id = grant_id) (h : WorkInside grants ctx id task)
    (hold : ∀ old, ctx.tasks.get? id = some old → Redecided old task)
    (hok : ∀ old, ctx.tasks.get? id = some old → old.live = true → old.state ≠ .claimed →
      action.name = .bindRole → sameRole grants grant_id old action = true)
    (live : task.live = true) (edit : TaskEdit ctx working action id task edited) :
    WorkInside grants ctx id (revisedTask P task edited) := by
  have hfixed : TaskFixed task (revisedTask P task edited) := edit.redecided.toTaskFixed
  refine ⟨?_, fun hnone => hfixed.grant_id.trans (h.created hnone)⟩
  cases edit with
  | depended | prioritized | dispatched => exact h.confined.of_fixed hfixed rfl rfl
  | @bound alias_id role_ref name stated granted unclaimed =>
    obtain ⟨own_id, own, hown, hget, hinside⟩ := h.confined
    refine ⟨own_id, own, hown, hget, hinside.of_fixed hfixed ⟨alias_id, role_ref, rfl, rfl, ?_⟩⟩
    cases htask : ctx.tasks.get? id with
    | none =>
      have hsame := hown.symm.trans (h.created htask)
      rw [hnamed, Option.some.injEq] at hsame
      rw [hsame, hgrant, Option.some.injEq] at hget
      rw [← hget]
      exact granted
    | some old =>
      have hkept := hold old htask
      have hstate := hkept.state live
      rw [hstate] at unclaimed
      have hrole := hok old htask (by rw [← Task.live_congr hstate, live]) unclaimed name
      rw [hkept.grant_id] at hown
      simpa [sameRole, stated, Json.str?, hgrant, granted, hown, hget] using hrole

theorem bindsWithin_same (h : bindsWithin db submission = true) (hm : action ∈ submission.parsed.actions)
    (stated : field action.fields "task_id" = .str id)
    (hold : db.task? submission.key id = some old) (live : old.live = true)
    (unclaimed : old.state ≠ .claimed) (name : action.name = .bindRole) :
    sameRole (db.grants submission.key) submission.parsed.grant_id old action = true := by
  simpa [name, stated, Json.str?, hold, live, unclaimed] using List.all_eq_true.mp h action hm

theorem WorkSteps.inside (hgrant : (db.grants submission.key).get? submission.parsed.grant_id = some ctx.grant)
    (hnamed : ctx.grant.grant_id = submission.parsed.grant_id)
    (hctx : ∀ id, ctx.tasks.get? id = db.task? submission.key id) (hok : bindsWithin db submission = true)
    (hconfined : ∀ id task, db.task? submission.key id = some task → InOwnGrant (db.grants submission.key) task)
    (h : WorkSteps P ctx submission.parsed.actions ctx.tasks working) (id : String) (task : Task)
    (hget : working.get? id = some task) : WorkInside (db.grants submission.key) ctx id task := by
  induction h generalizing id task with
  | refl =>
    refine ⟨hconfined id task (by rw [← hctx, hget]), fun hnone => ?_⟩
    rw [hget] at hnone; cases hnone
  | @tail middle _ hsteps hstep ih =>
    have hkept : ∀ id old task, ctx.tasks.get? id = some old → middle.get? id = some task →
        Redecided old task := by
      intro id old task hold htask
      obtain ⟨task', htask', hkept⟩ := WorkSteps.redecided hsteps hold
      rw [htask] at htask'; cases htask'
      exact hkept
    have hadded : ∀ fields spec expansion,
        AcceptedSpec ctx.grant.toAuthority ctx.tasks ctx.producers fields spec →
        WorkInside (db.grants submission.key) ctx (memberId P ctx.decision_id fields)
          (memberDocument P ctx expansion spec (memberId P ctx.decision_id fields)) := by
      intro fields spec expansion haccepted
      exact ⟨⟨_, ctx.grant, rfl, by rw [hnamed, hgrant], memberDocument_inside haccepted⟩, fun _ => rfl⟩
    cases hstep with
    | @edited id' action old edited listed stated found live edit =>
      rcases Dict.of_put hget with ⟨rfl, rfl⟩ | ⟨-, hget⟩
      · refine edit.inside hgrant hnamed (ih id' old found) (fun before hbefore => ?_)
          (fun before hbefore => ?_) live
        · exact hkept id' before old hbefore found
        · rw [hctx] at hbefore
          exact bindsWithin_same hok listed stated hbefore
      · exact ih id task hget
    | added _ _ accepted =>
      rcases Dict.of_put hget with ⟨rfl, rfl⟩ | ⟨-, hget⟩
      · exact hadded _ _ _ accepted
      · exact ih id task hget
    | @replaced _ _ _ _ replaced _ _ _ accepted _ _ found =>
      rw [Dict.get?_put] at hget
      split at hget
      case isTrue hid =>
        subst hid
        cases hget
        exact hadded _ _ _ accepted
      case isFalse =>
        rcases Dict.of_put hget with ⟨rfl, rfl⟩ | ⟨-, hget⟩
        · exact retiredTask_inside (ih replaced _ found) _
        · exact ih id task hget

-- Every run

theorem Handled.confined (h : Handled P old new) (hc : InOwnGrant grants old) : InOwnGrant grants new := by
  cases h with
  | claimed ready => exact hc.of_fixed (Handled.claimed ready).fixed rfl rfl
  | reported claimed => exact hc.of_fixed (Handled.reported claimed).fixed rfl rfl

theorem serve_confined (hok : BindsWithin P store request) (hsound : GrantsSound P (store.db.grants key))
    (h : ∀ id task, store.db.task? key id = some task → InOwnGrant (store.db.grants key) task)
    (id : String) (task : Task) (hget : (store.serve P request).db.task? key id = some task) :
    InOwnGrant ((store.serve P request).db.grants key) task := by
  refine InOwnGrant.kept ?_ ((serve_effect store request).grants key).kept_terms
  have hmove := serve_table P store request key
  generalize (store.serve P request).db.task? key = table at hmove hget
  cases hmove with
  | same => exact h id task hget
  | handled found handled =>
    beta_reduce at hget
    split at hget
    · cases hget
      exact handled.confined (h _ _ found)
    · exact h id task hget
  | @decided _ _ _ _ _ submission ctx plan _ read planned =>
    have hmeets := decisionMeets_ok hok read planned
    cases (readSubmission_ok read).1
    have hgrant := (grantRow_ok.mp planned.granted).1
    exact (planned.steps.inside hgrant (hsound _ _ hgrant).named (fun _ => planned.context) hmeets h id
      task hget).confined

/-- While every role a decision binds is the one the grant of its task has under
that alias, every task of a run is inside the grant it belongs to. -/
theorem tasks_confined (h : (schedulingStore P).Reach (BindsWithin P) store) (key : RunKey)
    (hget : store.db.task? key id = some task) : InOwnGrant (store.db.grants key) task := by
  suffices hsound : GrantsSound P (store.db.grants key) ∧
      ∀ id task, store.db.task? key id = some task → InOwnGrant (store.db.grants key) task from
    hsound.2 id task hget
  refine h.invariant (I := fun store => GrantsSound P (store.db.grants key) ∧
    ∀ id task, store.db.task? key id = some task → InOwnGrant (store.db.grants key) task) ?_ ?_
  · rintro _ ⟨projects, rfl⟩
    refine ⟨?_, ?_⟩
    · intro id grant hgrant
      cases hgrant
    · intro id task htask
      cases htask
  · rintro store request ⟨hsound, hconfined⟩ hok
    exact ⟨((serve_effect store request).grants key).sound hsound, serve_confined hok hsound hconfined⟩

end

namespace Sample

/-- A grant that binds roles, under an alias more than the other one. -/
def binding : Json := .object [("grant_id", .str "h"), ("subject_ref", .str "s"), ("role_instance", .str "i"),
    ("allowed_actions", Json.ofTexts ["bind_role"]), ("inputs", .list []),
    ("scope", Json.ofTexts ["d"]), ("write_scope", Json.ofTexts ["d"]),
    ("required_outcomes", Json.ofTexts ["o"]),
    ("role_refs", .object [("a", .str "b"), ("z", .str "b")]), ("resource_policy", resourcePolicy)]

def granted : List Request := ready ++ [.issueGrant key binding 0]

def bindAs (alias_id : String) : Request :=
  .submitDecision key "h"
    (.object [("decision_id", .str "d2"), ("grant_id", .str "h"), ("term", .int 0),
      ("expected_graph_revision", .int 1), ("inputs_digest", .str inputsDigest),
      ("actions", .list [.object [("action", .str "bind_role"), ("task_id", .str "d1.1"),
        ("role_alias", .str alias_id)]])])
    { role with grant_id := some "h" } "2" clock

def bindingOf (store : Store) (task_id : String) : Option (Nat × Option String × Option String) :=
  (store.db.task? key task_id).map fun task => (task.revision, task.role_alias, task.grant_id)

end Sample

open Sample in
/-- An alias that means the same role in both grants can be bound. -/
theorem tasks_confined_bound :
    ∃ task, (after (granted ++ [bindAs "a"])).db.task? key "d1.1" =
        some task ∧ task.revision = 2 ∧
      InOwnGrant ((after (granted ++ [bindAs "a"])).db.grants key) task := by
  have hreach : system.Reach (BindsWithin platform)
      (after (granted ++ [bindAs "a"])) :=
    .of_run start_initial (by decide +kernel)
  have hbound : bindingOf (after (granted ++ [bindAs "a"])) "d1.1" =
      some (2, some "a", some "g") := by
    decide +kernel
  obtain ⟨task, hget, hfacts⟩ := Option.map_eq_some_iff.mp hbound
  simp only [Prod.mk.injEq] at hfacts
  exact ⟨task, hget, hfacts.1, tasks_confined hreach key hget⟩

open Sample in
/-- An alias of the deciding grant alone can be bound, too. -/
theorem bound_outside_grant : ∃ store task grant, system.Reach System.free store ∧
      store.db.task? key "d1.1" = some task ∧ task.grant_id = some "g" ∧
      (store.db.grants key).get? "g" = some grant ∧
      ∀ alias_id, task.role_alias = some alias_id → grant.role_refs.get? alias_id = none := by
  have hreach := after_reach (granted ++ [bindAs "z"])
  have hbound : bindingOf (after (granted ++ [bindAs "z"])) "d1.1" =
        some (2, some "z", some "g") ∧
      (((after (granted ++ [bindAs "z"])).db.grants key).get? "g").map
        (fun grant => grant.role_refs.get? "z") = some none := by
    decide +kernel
  generalize after (granted ++ [bindAs "z"]) = store at hreach hbound
  obtain ⟨task, hget, hfacts⟩ := Option.map_eq_some_iff.mp hbound.1
  obtain ⟨grant, hgrant, hnone⟩ := Option.map_eq_some_iff.mp hbound.2
  simp only [Prod.mk.injEq] at hfacts
  refine ⟨store, task, grant, hreach, hget, hfacts.2.2, hgrant, ?_⟩
  intro alias_id halias
  rw [hfacts.2.1] at halias; cases halias
  exact hnone

end Karajan.Scheduling
