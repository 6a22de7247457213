import Karajan.Scheduling.TaskTable

/-!
# The members of open sets

An open set follows the graph. An edit refreshes the entries of the task it edits,
and a set that is expanded takes in the successors of its members that the decision
replaced. A set that is not expanded afterwards keeps the retired member, a successor
that was edited before it enters is outdated, and an entry keeps the flags of the
member it replaces; `MembersFollow` says that none of the three happens.
-/

namespace Karajan.Scheduling

open Option Dict Check

-- What a decision says of a member it replaces

def ParsedAction.names (action : ParsedAction) (name text : String) : Bool :=
  (field action.fields name).str? = some text

/-- What the actions left make of a replaced member of an open set. The set takes in
its successor when it is expanded, as the successor was created. An edit of the
successor refreshes an entry that is there and outdates one that is to come. A seal
refuses what is out of date, and ends it. -/
def followed (same : Bool) (set successor : String) (entered outdated : Bool) : List ParsedAction → Bool
  | [] => entered && !outdated && same
  | action :: rest =>
    match action.name with
    | .seal => action.names "expansion_id" set || followed same set successor entered outdated rest
    | .expandGraph =>
      followed same set successor (entered || action.names "expansion_id" set) outdated rest
    | _ =>
      followed same set successor entered
        (if action.names "task_id" successor then !entered else outdated) rest

def sameFlags (task : Task) (fields : Fields) : Bool :=
  (fieldD fields "required" (.bool true)).bool? = some task.required &&
    sorted (statedTexts (fieldD fields "required_outcomes" (.list []))) = task.required_outcomes

/-- Every open set with the task a specification supersedes follows it. -/
def itemFollowed (P : Platform) (decision_id : String) (tasks : String → Option Task)
    (sets : Dict String Expansion) (closed : List String) (action : ParsedAction)
    (rest : List ParsedAction) (item : Json) : Bool :=
  item.object?.all fun fields => ((field fields "supersedes").str?).all fun replaced =>
    (tasks replaced).all fun task => sets.entries.all fun entry =>
      entry.2.state ≠ .opened || !entry.2.members.contains replaced || closed.contains entry.1 ||
        followed (sameFlags task fields) entry.1 (memberId P decision_id fields)
          (action.names "expansion_id" entry.1) false rest

def closes (action : ParsedAction) : List String :=
  if action.name = .seal then ((field action.fields "expansion_id").str?).toList else []

/-- Every task some actions supersede is followed, by the sets that are not closed before. -/
def actionsFollowed (P : Platform) (decision_id : String) (tasks : String → Option Task)
    (sets : Dict String Expansion) : List String → List ParsedAction → Bool
  | _, [] => true
  | closed, action :: rest =>
    (statedItems action).all (itemFollowed P decision_id tasks sets closed action rest) &&
      actionsFollowed P decision_id tasks sets (closes action ++ closed) rest

def membersFollow (P : Platform) (db : Db) (submission : Submission) : Bool :=
  actionsFollowed P submission.parsed.decision_id (db.task? submission.key)
    (db.runs submission.key).task_expansions [] submission.parsed.actions

def MembersFollow (P : Platform) (store : Store) (request : Request) : Prop :=
  decisionMeets P (membersFollow P) store request = true

instance : Decidable (MembersFollow P store request) :=
  inferInstanceAs (Decidable (decisionMeets P (membersFollow P) store request = true))

section
variable {P : Platform} {ctx : PlanContext} {plan middle : Plan} {id set : String} {member : Member}
  {action : ParsedAction} {working working' : Dict String Task}

theorem ParsedAction.names_iff {name text : String} :
    action.names name text = true ↔ field action.fields name = .str text := by
  simp [names, Json.str?_eq_some]

theorem ParsedAction.names_other {name : String} (h : field action.fields name = .str text) (hne : text ≠ other) :
    action.names name other = false := by
  rw [Bool.eq_false_iff]
  intro hnames
  have hsame := (names_iff.mp hnames).symm.trans h
  cases hsame
  exact hne rfl

theorem followed_current : ∀ actions, followed true set id true false actions = true
  | [] => rfl
  | action :: rest => by
    have ih := followed_current rest
    unfold followed
    split <;> simp [ih]

-- What an entry tells of its task

/-- An entry names a current task that was not claimed: by its version, unless it is
outdated, and by its flags, where they are the same. -/
structure Names (task? : String → Option Task) (id : String) (member : Member) (same outdated : Bool)
    (task : Task) : Prop where
  found : task? id = some task
  live : task.live = true
  unclaimed : task.claim_id = none
  version : outdated = false → member.revision = some task.revision ∧ member.digest = task.digest
  flags : same = true → member.required = task.required ∧ member.required_outcomes = task.required_outcomes

theorem Names.congr (h : Names task? id member same outdated task)
    (hget : after id = task? id) : Names after id member same outdated task :=
  ⟨hget.trans h.found, h.live, h.unclaimed, h.version, h.flags⟩

def followMember (plan : Plan) (replaced successor : String) (previous : Member) : Member :=
  { previous with
    task_id := successor
    revision := some 1
    digest := (plan.document_digests.get? successor).getD ""
    replaced := some replaced }

/-- Where a member of an open set stands while a decision is planned: it is in the
set, or its successor will be. -/
inductive Standing (ctx : PlanContext) (plan : Plan) (pending : List (String × String)) (set : String)
    (now : Bool) (actions : List ParsedAction) (id : String) (member : Member) : Prop
  | entered {same outdated : Bool} {task : Task}
      (followed : followed same set id true outdated actions = true)
      (names : Names plan.working.get? id member same outdated task)
      (old : ctx.tasks.get? id ≠ none → same = true ∧ outdated = false)
  | awaited {successor : String} {same outdated : Bool} {task : Task}
      (replaced : (id, successor) ∈ pending)
      (followed : followed same set successor now outdated actions = true)
      (names : Names plan.working.get? successor (followMember plan id successor member) same outdated task)

/-- A task the batch replaced was there before and is retired, and its successor is new. -/
structure Replaced (ctx : PlanContext) (working : Dict String Task) (replaced successor : String) : Prop where
  known : ctx.tasks.get? replaced ≠ none
  fresh : ctx.tasks.get? successor = none
  retired : ∃ task, working.get? replaced = some task ∧ task.live = false

/-- What a plan keeps of the tasks it found, and of those it replaced. -/
structure Batch (ctx : PlanContext) (plan : Plan) : Prop where
  named : TasksNamed plan.working.get?
  kept : TasksFixed ctx.tasks.get? plan.working.get?
  replaced : ∀ replaced successor, plan.replaced_within.get? replaced = some successor →
    Replaced ctx plan.working replaced successor

/-- The members of an open set while a decision is planned, against those it had before. -/
structure Tracked (ctx : PlanContext) (plan : Plan) (pending : List (String × String))
    (before : Dict String Member) (set : String) (now : Bool) (actions : List ParsedAction)
    (members : Dict String Member) : Prop where
  entries : ∀ id member, members.get? id = some member → member.task_id = id ∧
    (∃ revision, member.revision = some revision) ∧ Standing ctx plan pending set now actions id member
  origin : ∀ id, ctx.tasks.get? id ≠ none → members.get? id ≠ none → before.get? id ≠ none

section
variable (h : Tracked ctx plan pending before set now actions members)
include h

theorem Tracked.stands (hstands : ∀ id member, members.get? id = some member → Standing ctx plan pending set now actions id member →
      Standing ctx plan' pending' set now' actions' id member) :
    Tracked ctx plan' pending' before set now' actions' members := by
  refine ⟨fun id member hget => ?_, h.origin⟩
  obtain ⟨hname, hrevision, hstanding⟩ := h.entries id member hget
  exact ⟨hname, hrevision, hstands id member hget hstanding⟩

theorem Tracked.congr (hworking : plan'.working = plan.working) (hdigests : plan'.document_digests = plan.document_digests) :
    Tracked ctx plan' pending before set now actions members := by
  refine h.stands fun id member hget hstanding => ?_
  cases hstanding with
  | entered followed names old => exact .entered followed (names.congr (by rw [hworking])) old
  | @awaited successor _ _ _ replaced followed names =>
    have hmember : followMember plan' id successor member = followMember plan id successor member := by
      rw [followMember, followMember, hdigests]
    exact .awaited replaced followed (hmember ▸ names.congr (by rw [hworking]))

end

abbrev PlanTracked (ctx : PlanContext) (plan : Plan) := Tracked ctx plan plan.replaced_within.entries

-- Sealing and editing

theorem followed_seal (hname : action.name = .seal) (hother : action.names "expansion_id" set = false) :
    followed same set id entered outdated (action :: rest) = followed same set id entered outdated rest := by
  simp [followed, hname, hother]

theorem followed_expand (hname : action.name = .expandGraph) :
    followed same set id entered outdated (action :: rest) =
      followed same set id (entered || action.names "expansion_id" set) outdated rest := by
  simp [followed, hname]

variable {task edited : Task}

theorem TaskEdit.name (h : TaskEdit ctx working action id task edited) :
    action.name ≠ .seal ∧ action.name ≠ .expandGraph := by
  cases h with
  | bound name | depended name | prioritized name | dispatched name => simp [name]

theorem followed_edit (hseal : action.name ≠ .seal) (hexpand : action.name ≠ .expandGraph) :
    followed same set id entered outdated (action :: rest) =
      followed same set id entered (if action.names "task_id" id then !entered else outdated) rest := by
  rw [followed]
  split
  case h_1 h => exact absurd h hseal
  case h_2 h => exact absurd h hexpand
  · rfl

theorem Tracked.taken (hentered : ∀ same id outdated, followed same set id true outdated actions = true →
      followed same set id true outdated rest = true)
    (hawaited : ∀ same id outdated, followed same set id now outdated actions = true →
      followed same set id now' outdated rest = true)
    (h : Tracked ctx plan pending before set now actions members) :
    Tracked ctx plan pending before set now' rest members := by
  refine h.stands fun id member hget hstanding => ?_
  cases hstanding with
  | entered followed names old => exact .entered (hentered _ _ _ followed) names old
  | awaited replaced followed names => exact .awaited replaced (hawaited _ _ _ followed) names

theorem revisedTask_kept (h : TaskEdit ctx working action id task edited) :
    (revisedTask P task edited).state = task.state ∧
      (revisedTask P task edited).claim_id = task.claim_id ∧
      (revisedTask P task edited).required = task.required ∧
      (revisedTask P task edited).required_outcomes = task.required_outcomes := by
  cases h <;> exact ⟨rfl, rfl, rfl, rfl⟩

def refreshed (document : Task) (member : Member) : Member :=
  { member with revision := some document.revision, digest := document.digest }

open ParsedAction (names names_iff names_other)

theorem Standing.revise {plan' : Plan} (hb : Batch ctx plan)
    (h : Standing ctx plan plan.replaced_within.entries set false (action :: rest) name member)
    (hr : Revising P ctx plan action id task edited plan') :
    Standing ctx plan' plan'.replaced_within.entries set false rest name
      (if name = id then refreshed (revisedTask P task edited) member else member) := by
  obtain ⟨hseal, hexpand⟩ := hr.edit.name
  obtain ⟨hstate, hclaim, hrequired, houtcomes⟩ := revisedTask_kept (P := P) hr.edit
  have hlive : (revisedTask P task edited).live = true := (Task.live_congr hstate).trans hr.live
  rw [hr.after]
  have hother : ∀ other, other ≠ id →
      action.names "task_id" other = false ∧
      (plan.revise P id (revisedTask P task edited)).working.get? other = plan.working.get? other := by
    exact fun other hne => ⟨names_other hr.stated hne.symm, get?_put_of_ne hne.symm⟩
  have hself : action.names "task_id" id = true := names_iff.mpr hr.stated
  have hfound : (plan.revise P id (revisedTask P task edited)).working.get? id =
      some (revisedTask P task edited) := get?_put_self
  cases h with
  | entered followed names old =>
    rw [followed_edit hseal hexpand] at followed
    by_cases hid : name = id
    · subst hid
      have hsame := hr.found.symm.trans names.found
      cases hsame
      rw [if_pos rfl]
      rw [hself] at followed
      refine .entered followed ⟨hfound, hlive, ?_, fun _ => ⟨rfl, rfl⟩, ?_⟩ fun hold => ⟨(old hold).1, rfl⟩
      · rw [hclaim]; exact names.unclaimed
      · rw [hrequired, houtcomes]; exact names.flags
    · rw [if_neg hid]
      obtain ⟨hnames, hget⟩ := hother name hid
      rw [hnames] at followed
      exact .entered followed (names.congr hget) old
  | @awaited successor _ _ _ replaced followed names =>
    have hname : name ≠ id := by
      rintro rfl
      obtain ⟨dead, hdead, hretired⟩ := (hb.replaced _ _ (get?_eq_some.mpr replaced)).retired
      have hsame := hr.found.symm.trans hdead
      cases hsame
      have hlive := hr.live
      rw [hretired] at hlive; cases hlive
    rw [if_neg hname]
    rw [followed_edit hseal hexpand] at followed
    by_cases hid : successor = id
    · subst hid
      have hsame := hr.found.symm.trans names.found
      cases hsame
      rw [hself] at followed
      refine .awaited replaced followed ⟨hfound, hlive, ?_, ?_, ?_⟩
      · rw [hclaim]; exact names.unclaimed
      · intro hfalse; cases hfalse
      · rw [hrequired, houtcomes]; exact names.flags
    · obtain ⟨hnames, hget⟩ := hother successor hid
      rw [hnames] at followed
      exact .awaited replaced followed (names.congr hget)

theorem Tracked.revise (hb : Batch ctx plan) (h : PlanTracked ctx plan before set false (action :: rest) members)
    (hr : Revising P ctx plan action id task edited plan') (hmembers : ∀ name, members'.get? name =
      if name = id then (members.get? name).map (refreshed (revisedTask P task edited))
      else members.get? name) : PlanTracked ctx plan' before set false rest members' := by
  constructor
  · intro name member hget
    rw [hmembers] at hget
    by_cases hid : name = id
    · rw [if_pos hid] at hget
      obtain ⟨old, hold, rfl⟩ := map_eq_some_iff.mp hget
      obtain ⟨hname, -, hstanding⟩ := h.entries name old hold
      have hrevised := hstanding.revise hb hr
      rw [if_pos hid] at hrevised
      exact ⟨hname, ⟨_, rfl⟩, hrevised⟩
    · rw [if_neg hid] at hget
      obtain ⟨hname, hrevision, hstanding⟩ := h.entries name member hget
      have hrevised := hstanding.revise hb hr
      rw [if_neg hid] at hrevised
      exact ⟨hname, hrevision, hrevised⟩
  · intro name hold hget
    refine h.origin name hold fun hnone => hget ?_
    rw [hmembers, hnone]
    simp

-- Expanding

structure Created (id : String) (document : Task) : Prop where
  task_id : document.task_id = id
  live : document.live = true
  unclaimed : document.claim_id = none
  revision : document.revision = 1

theorem Names.created (hc : Created id document) (hget : working.get? id = some document)
    (hrevision : member.revision = some 1) (hdigest : member.digest = document.digest)
    (hflags : same = true → member.required = document.required ∧
      member.required_outcomes = document.required_outcomes) : Names working.get? id member same false document :=
  ⟨hget, hc.live, hc.unclaimed, fun _ => ⟨by rw [hrevision, hc.revision], hdigest⟩, hflags⟩

variable {document : Task} {now : Bool}

theorem retiredTask_live : (retiredTask P ctx previous task_id).live = false := Task.live_superseded rfl

theorem Standing.addTask (h : Standing ctx plan pending set now actions name member)
    (fresh : plan.working.get? id = none) :
    Standing ctx (plan.addTask id document) pending set now actions name member := by
  have hother : ∀ other task, plan.working.get? other = some task → id ≠ other := by
    rintro other task hget rfl
    rw [fresh] at hget; cases hget
  have hget : ∀ other, id ≠ other →
      (plan.addTask id document).working.get? other = plan.working.get? other := fun other hne =>
    get?_put_of_ne hne
  cases h with
  | entered followed names old =>
    exact .entered followed (names.congr (hget _ (hother _ _ names.found))) old
  | @awaited successor same outdated task replaced followed names =>
    have hne := hother _ _ names.found
    have hnames : Names (plan.addTask id document).working.get? successor
        (followMember (plan.addTask id document) name successor member) same outdated task := by
      have hdigest : (plan.addTask id document).document_digests.get? successor =
          plan.document_digests.get? successor := get?_put_of_ne hne
      rw [followMember, hdigest]
      exact names.congr (hget _ hne)
    exact .awaited replaced followed hnames

theorem Standing.replace (hb : Batch ctx plan)
    (h : Standing ctx plan plan.replaced_within.entries set now actions name member)
    (hc : Created id document) (fresh : plan.working.get? id = none)
    (found : plan.working.get? replaced = some previous) (live : previous.live = true)
    (known : ctx.tasks.get? replaced ≠ none)
    (hfollow : name = replaced → ∃ same, followed same set id now false actions = true ∧
      (same = true → previous.required = document.required ∧
        previous.required_outcomes = document.required_outcomes)) :
    Standing ctx ((plan.retire P ctx replaced id previous).addTask id document)
      ((plan.retire P ctx replaced id previous).addTask id document).replaced_within.entries set now actions
      name member := by
  have hreplaced : ((plan.retire P ctx replaced id previous).addTask id document).replaced_within.get?
      replaced = some id := get?_put_self
  have hkept : ∀ other, id ≠ other → replaced ≠ other →
      ((plan.retire P ctx replaced id previous).addTask id document).working.get? other =
        plan.working.get? other := fun other hid hold =>
    (get?_put_of_ne hid).trans (get?_put_of_ne hold)
  have hfresh : ∀ other task, plan.working.get? other = some task → id ≠ other := by
    rintro other task hget rfl
    rw [fresh] at hget; cases hget
  by_cases hname : replaced = name
  · subst hname
    obtain ⟨same, hfollowed, hflags⟩ := hfollow rfl
    cases h with
    | entered _ names old =>
      have hsame := found.symm.trans names.found
      cases hsame
      obtain ⟨hrequired, houtcomes⟩ := names.flags (old known).1
      refine .awaited (get?_eq_some.mp hreplaced) hfollowed
        (.created hc get?_put_self rfl ?_ fun hsame => ?_)
      · simp [followMember, Plan.addTask]
      · exact ⟨hrequired.trans (hflags hsame).1, houtcomes.trans (hflags hsame).2⟩
    | awaited pending =>
      obtain ⟨dead, hdead, hretired⟩ := (hb.replaced _ _ (get?_eq_some.mpr pending)).retired
      have hsame := found.symm.trans hdead
      cases hsame
      rw [live] at hretired; cases hretired
  · cases h with
    | entered followed names old =>
      exact .entered followed (names.congr (hkept _ (hfresh _ _ names.found) hname)) old
    | @awaited successor same outdated task pending followed names =>
      have hentry := get?_eq_some.mpr pending
      have hsuccessor : replaced ≠ successor := by
        rintro rfl
        exact known (hb.replaced _ _ hentry).fresh
      have hid := hfresh _ _ names.found
      have hnames : Names ((plan.retire P ctx replaced id previous).addTask id document).working.get?
          successor (followMember ((plan.retire P ctx replaced id previous).addTask id document) name
            successor member) same outdated task := by
        have hdigest : ((plan.retire P ctx replaced id previous).addTask id
            document).document_digests.get? successor = plan.document_digests.get? successor :=
          get?_put_of_ne hid
        rw [followMember, hdigest]
        exact names.congr (hkept _ hid hsuccessor)
      refine .awaited (get?_eq_some.mp ?_) followed hnames
      exact (get?_put_of_ne hname).trans hentry

theorem WorkStep.retired (h : WorkStep P ctx listed working working') (hget : working.get? id = some old)
    (hdead : old.live = false) : ∃ new, working'.get? id = some new ∧ new.live = false := by
  obtain ⟨new, hnew, hr⟩ := h.redecided hget
  refine ⟨new, hnew, ?_⟩
  by_contra hlive
  rw [Bool.not_eq_false] at hlive
  rw [Task.live_congr (hr.state hlive), hdead] at hlive
  cases hlive

theorem WorkSteps.retired (h : WorkSteps P ctx listed working working') (hget : working.get? id = some old)
    (hdead : old.live = false) : ∃ new, working'.get? id = some new ∧ new.live = false := by
  induction h with
  | refl => exact ⟨old, hget, hdead⟩
  | tail _ hstep ih =>
    obtain ⟨task, htask, hretired⟩ := ih
    exact hstep.retired htask hretired

theorem Replaced.steps (h : Replaced ctx working replaced successor)
    (hsteps : WorkSteps P ctx listed working working') : Replaced ctx working' replaced successor := by
  obtain ⟨known, fresh, task, htask, hdead⟩ := h
  exact ⟨known, fresh, WorkSteps.retired hsteps htask hdead⟩

theorem Batch.steps (hb : Batch ctx plan) (hsteps : WorkSteps P ctx listed plan.working middle.working)
    (hsame : middle.replaced_within = plan.replaced_within) : Batch ctx middle := by
  refine ⟨WorkSteps.named hsteps hb.named, hb.kept.trans (WorkSteps.tasks_fixed hsteps), fun replaced successor hget => ?_⟩
  rw [hsame] at hget
  exact (hb.replaced replaced successor hget).steps hsteps

theorem Batch.fresh (hb : Batch ctx plan) (h : plan.working.get? id = none) : ctx.tasks.get? id = none := by
  cases hget : ctx.tasks.get? id with
  | none => rfl
  | some old =>
    obtain ⟨new, hnew, -⟩ := hb.kept id old hget
    rw [h] at hnew; cases hnew

theorem addMember_batch
    (hadd : addMember P ctx expansion pointer staged item = .ok staged') (hb : Batch ctx staged.1)
    (hlisted : item.1 ∈ statedItems action) : Batch ctx staged'.1 := by
  have hstep := addMember_step (List.mem_singleton_self action) hlisted hadd
  obtain ⟨fields, spec, middle, hadding, hplan, -⟩ := addMember_ok hadd
  refine ⟨WorkSteps.named (.single hstep) hb.named, hb.kept.trans hstep.tasks_fixed, fun replaced successor hget => ?_⟩
  have hretire : middle.replaced_within.get? replaced = some successor := by
    rw [hplan] at hget
    exact hget
  rcases hadding.superseding.replaced_within hretire with hbefore | ⟨hreplaces, rfl⟩
  · exact (hb.replaced replaced successor hbefore).steps (.single hstep)
  · obtain ⟨-, task, htask⟩ := hadding.accepted.supersedes replaced hreplaces
    refine ⟨by rw [htask]; simp, hb.fresh hadding.fresh, ?_⟩
    have hfresh := hadding.fresh
    rw [hplan]
    cases hadding.superseding with
    | fresh alone => rw [alone] at hreplaces; cases hreplaces
    | replaced replaces found =>
      rw [hreplaces] at replaces
      cases replaces
      refine ⟨_, (get?_put_of_ne ?_).trans get?_put_self, retiredTask_live⟩
      rintro rfl
      rw [hfresh] at found; cases found

variable {expansion : Expansion}

theorem itemFollowed_ok {fields : Fields} {tasks : String → Option Task} {sets : Dict String Expansion}
    (h : itemFollowed P decision_id tasks sets closed action rest (.object fields) = true)
    (hreplaces : field fields "supersedes" = .str replaced) (htask : tasks replaced = some task)
    (hset : sets.get? set = some expansion) (hopen : expansion.state = .opened)
    (hmember : expansion.members.get? replaced ≠ none) (hclosed : set ∉ closed) :
    followed (sameFlags task fields) set (memberId P decision_id fields)
      (action.names "expansion_id" set) false rest = true := by
  have hcontains : expansion.members.contains replaced = true := by
    rw [contains, isSome_iff_ne_none]
    exact hmember
  have hall := h
  simp only [itemFollowed, Json.object?, hreplaces, Json.str?, all_some, htask, List.all_eq_true] at hall
  simpa [hopen, hcontains, hclosed] using hall (set, expansion) (get?_eq_some.mp hset)

/-- A set was open before the decision, and none of the actions taken sealed it. -/
def OpenBefore (sets : Dict String Expansion) (closed : List String) (set : String)
    (before : Dict String Member) : Prop :=
  ∃ expansion, sets.get? set = some expansion ∧ expansion.state = .opened ∧
    expansion.members = before ∧ set ∉ closed

theorem memberDocument_created : Created id (memberDocument P ctx expansion spec id) := ⟨rfl, rfl, rfl, rfl⟩

theorem Tracked.addMember (hadd : addMember P ctx expansion pointer staged item = .ok staged')
    (hb : Batch ctx staged.1)
    (hitem : itemFollowed P ctx.decision_id ctx.tasks.get? sets closed action rest item.1 = true)
    (hopen : OpenBefore sets closed set before)
    (h : PlanTracked ctx staged.1 before set (action.names "expansion_id" set) rest members) :
    PlanTracked ctx staged'.1 before set (action.names "expansion_id" set) rest members := by
  obtain ⟨fields, spec, middle, hadding, hplan, -⟩ := addMember_ok hadd
  have hfresh := hadding.fresh
  rw [hplan]
  refine h.stands fun name member hget hstanding => ?_
  cases hadding.superseding with
  | fresh => exact hstanding.addTask hfresh
  | @replaced replaced previous replaces found live =>
    obtain ⟨hstated, task, htask⟩ := hadding.accepted.supersedes replaced replaces
    refine hstanding.replace hb memberDocument_created hfresh found live (by rw [htask]; simp) ?_
    rintro rfl
    obtain ⟨before', hbefore', hstate, rfl, hclosed⟩ := hopen
    refine ⟨sameFlags task fields, ?_, fun hsame => ?_⟩
    · rw [hadding.stated] at hitem
      refine itemFollowed_ok hitem hstated htask hbefore' hstate (h.origin name ?_ ?_) hclosed
      · rw [htask]; simp
      · rw [hget]; simp
    · obtain ⟨previous', hprevious', hfixed⟩ := hb.kept name task htask
      rw [found] at hprevious'
      cases hprevious'
      simp only [sameFlags, hadding.accepted.required, Json.bool?, Bool.and_eq_true,
        decide_eq_true_eq, some.injEq] at hsame
      rw [← hadding.accepted.outcomes] at hsame
      exact ⟨hfixed.required.trans hsame.1.symm, hfixed.required_outcomes.trans hsame.2.symm⟩

theorem Tracked.put (hc : Created id document) (hget : plan.working.get? id = some document)
    (hnew : ctx.tasks.get? id = none) (h : Tracked ctx plan pending before set now rest members) :
    Tracked ctx plan pending before set now rest (members.put id (.of P fields document)) := by
  constructor
  · intro name member hmember
    rcases of_put hmember with ⟨hname, rfl⟩ | ⟨-, hmember⟩
    · subst hname
      refine ⟨hc.task_id, ⟨1, rfl⟩, .entered (followed_current rest) (.created hc hget rfl rfl ?_) ?_⟩
      · exact fun _ => ⟨rfl, rfl⟩
      · exact fun hold => absurd hnew hold
    · exact h.entries name member hmember
  · intro name hold hmember
    refine h.origin name hold fun hnone => ?_
    rw [get?_put_of_ne] at hmember
    · exact hmember hnone
    · rintro rfl
      exact hold hnew

theorem Standing.skip (h : Standing ctx plan ((replaced, successor) :: pending) set now actions id member)
    (hne : id ≠ replaced) : Standing ctx plan pending set now actions id member := by
  cases h with
  | entered followed names old => exact .entered followed names old
  | awaited awaits followed names =>
    refine .awaited ((List.mem_cons.mp awaits).resolve_left ?_) followed names
    intro hsame
    exact hne (congrArg Prod.fst hsame)

def takeIn (plan : Plan) (members : Dict String Member) (entry : String × String) : Dict String Member :=
  match members.get? entry.1 with
  | none => members
  | some previous => (members.erase entry.1).put entry.2 (followMember plan entry.1 entry.2 previous)

theorem Tracked.takeIn (hb : Batch ctx plan) (hpending : ∀ entry ∈ (replaced, successor) :: pending,
      plan.replaced_within.get? entry.1 = some entry.2)
    (h : Tracked ctx plan ((replaced, successor) :: pending) before set true actions members) :
    Tracked ctx plan pending before set true actions (takeIn plan members (replaced, successor)) := by
  obtain ⟨-, hnew, dead, hdead, hretired⟩ := hb.replaced replaced successor (hpending _ (List.mem_cons_self ..))
  unfold Scheduling.takeIn
  split
  case h_1 hnone =>
    refine h.stands fun id member hget hstanding => hstanding.skip ?_
    rintro rfl
    rw [hnone] at hget; cases hget
  case h_2 previous hprevious =>
    constructor
    · intro id member hget
      rcases of_put hget with ⟨hid, rfl⟩ | ⟨-, hget⟩
      · subst hid
        refine ⟨rfl, ⟨1, rfl⟩, ?_⟩
        obtain ⟨-, -, hstanding⟩ := h.entries replaced previous hprevious
        cases hstanding with
        | entered _ names =>
          have hsame := names.found.symm.trans hdead
          cases hsame
          have hlive := names.live
          rw [hretired] at hlive; cases hlive
        | awaited awaits followed names =>
          have hsame := (hpending _ awaits).symm.trans (hpending (replaced, successor) (List.mem_cons_self ..))
          cases hsame
          exact .entered followed names fun hold => absurd hnew hold
      · rw [get?_erase] at hget
        split at hget
        · cases hget
        case isFalse hne =>
          obtain ⟨hname, hrevision, hstanding⟩ := h.entries id member hget
          exact ⟨hname, hrevision, hstanding.skip hne⟩
    · intro id hold hget
      refine h.origin id hold fun hnone => ?_
      rw [get?_put_of_ne, get?_erase, hnone] at hget
      · simp at hget
      · rintro rfl
        exact hold hnew

theorem Tracked.follow (hb : Batch ctx plan) (h : PlanTracked ctx plan before set true actions members) :
    PlanTracked ctx plan before set false actions (followReplaced plan members) := by
  have hloop : ∀ pending members,
      (∀ entry ∈ pending, plan.replaced_within.get? entry.1 = some entry.2) →
      Tracked ctx plan pending before set true actions members →
      Tracked ctx plan [] before set true actions (pending.foldl (Scheduling.takeIn plan) members) := by
    intro pending
    induction pending with
    | nil => exact fun members _ h => h
    | cons entry pending ih =>
      intro members hpending h
      exact ih _ (fun entry' hentry => hpending entry' (List.mem_cons_of_mem _ hentry))
        (h.takeIn hb hpending)
  have hall := hloop plan.replaced_within.entries members
    (fun entry hentry => get?_eq_some.mpr hentry) h
  refine hall.stands fun id member hget hstanding => ?_
  cases hstanding with
  | entered followed names old => exact .entered followed names old
  | awaited pending => cases pending

theorem Tracked.pin (h : Tracked ctx plan pending before set now actions members) (working : Dict String Task) :
    Tracked ctx plan pending before set now actions (pinMembers working members) := by
  constructor
  · intro id member hget
    simp only [pinMembers, get?_mapValues, map_eq_some_iff] at hget
    obtain ⟨old, hold, rfl⟩ := hget
    obtain ⟨hname, ⟨revision, hrevision⟩, hstanding⟩ := h.entries id old hold
    simp only [hrevision]
    exact ⟨hname, ⟨revision, rfl⟩, hstanding⟩
  · intro id hold hget
    refine h.origin id hold fun hnone => hget ?_
    simp [pinMembers, get?_mapValues, hnone]

-- One decision

structure OpenSets (ctx : PlanContext) (sets : Dict String Expansion) (closed : List String)
    (actions : List ParsedAction) (plan : Plan) : Prop where
  batch : Batch ctx plan
  present : ∀ name, sets.get? name ≠ none → plan.expansions.get? name ≠ none
  tracked : ∀ name expansion, plan.expansions.get? name = some expansion → expansion.state = .opened →
    ∃ before, OpenBefore sets closed name before ∧
      PlanTracked ctx plan before name false actions expansion.members

variable {closed : List String} {plan' : Plan}

section
variable (h : OpenSets ctx sets closed (action :: rest) plan)
include h

theorem OpenSets.revised
    (hr : Revising P ctx plan action id task edited plan') : OpenSets ctx sets closed rest plan' := by
  have hname : (revisedTask P task edited).task_id = id :=
    hr.edit.redecided.task_id.trans (h.batch.named id task hr.found)
  have hsteps : WorkSteps P ctx [action] plan.working plan'.working :=
    (Applied.revised hr).steps (List.mem_singleton_self action)
  constructor
  · refine h.batch.steps hsteps ?_
    rw [hr.after]
    rfl
  · intro name hset
    rw [hr.after]
    simpa [Plan.revise, refreshMember, get?_mapValues] using h.present name hset
  · intro name expansion hget hopen
    rw [hr.after] at hget
    simp only [Plan.revise, refreshMember, get?_mapValues, map_eq_some_iff, hname] at hget
    obtain ⟨old, hold, rfl⟩ := hget
    have hstate : old.state = .opened := by
      split at hopen
      case isTrue hboth => exact hboth.1
      · exact hopen
    obtain ⟨before, hbefore, htracked⟩ := h.tracked name old hold hstate
    refine ⟨before, hbefore, htracked.revise h.batch hr fun name => ?_⟩
    by_cases hmember : old.members.contains id = true
    · rw [if_pos ⟨hstate, hmember⟩]
      exact get?_modify
    · rw [if_neg fun hboth => hmember hboth.2]
      split
      case isTrue hid =>
        rw [Bool.not_eq_true, contains_eq_false] at hmember
        rw [hid, hmember]
        rfl
      · rfl

theorem OpenSets.sealed {known : List String} (hname : action.name = .seal)
    (hstated : field action.fields "expansion_id" = .str expansion_id) (hsealed : expansion.state = .sealed) :
    OpenSets ctx sets (closes action ++ closed) rest { plan with
      expansions := plan.expansions.put expansion_id expansion
      sealed := plan.sealed.put expansion_id known } := by
  refine ⟨⟨h.batch.named, h.batch.kept, h.batch.replaced⟩, fun name hset => ?_,
    fun name expansion' hget hopen => ?_⟩
  · rw [get?_put]
    split
    · simp
    · exact h.present name hset
  rcases of_put hget with ⟨-, rfl⟩ | ⟨hne, hget⟩
  · rw [hsealed] at hopen; cases hopen
  · obtain ⟨before, ⟨stored, hstored, hstate, hmembers, hclosed⟩, htracked⟩ :=
      h.tracked name expansion' hget hopen
    refine ⟨before, ⟨stored, hstored, hstate, hmembers, ?_⟩, ?_⟩
    · simp [closes, hname, hstated, Json.str?, hclosed, Ne.symm hne]
    · have hother : action.names "expansion_id" name = false := names_other hstated hne
      refine (htracked.taken ?_ ?_).congr rfl rfl
      · intro same id outdated hfollowed
        rwa [followed_seal hname hother] at hfollowed
      · intro same id outdated hfollowed
        rwa [followed_seal hname hother] at hfollowed

theorem OpenSets.expanded {expansion_id : String} (hitems : ∀ item ∈ statedItems action,
      itemFollowed P ctx.decision_id ctx.tasks.get? sets closed action rest item = true)
    (hname : action.name = .expandGraph) (hstated : field action.fields "expansion_id" = .str expansion_id)
    (found : plan.expansions.get? expansion_id = some expansion) (isOpen : expansion.state = .opened)
    (hlisted : field action.fields "tasks" = .list declared)
    (staged : declared.zipIdx.foldlM (addMember P ctx expansion pointer) (plan, expansion.members) =
      .ok (middle, members)) : OpenSets ctx sets closed rest { middle with
      expansions := middle.expansions.put expansion_id (resealExpansion P { expansion with
        members := pinMembers middle.working (followReplaced middle members)
        batches := expansion.batches + 1 }) } := by
  have hself : action.names "expansion_id" expansion_id = true := names_iff.mpr hstated
  have hstart : ∀ name expansion, plan.expansions.get? name = some expansion → expansion.state = .opened →
      ∃ before, OpenBefore sets closed name before ∧
        PlanTracked ctx plan before name (action.names "expansion_id" name) rest expansion.members := by
    intro name expansion hget hopen
    obtain ⟨before, hbefore, htracked⟩ := h.tracked name expansion hget hopen
    refine ⟨before, hbefore, htracked.taken ?_ ?_⟩
    · intro same id outdated hfollowed
      simpa [followed_expand hname] using hfollowed
    · intro same id outdated hfollowed
      simpa [followed_expand hname] using hfollowed
  obtain ⟨before, hbefore, hmembers⟩ := hstart expansion_id expansion found isOpen
  let Batched (staged : Plan × Dict String Member) : Prop := Batch ctx staged.1 ∧
    staged.1.expansions = plan.expansions ∧
    (∀ name expansion, plan.expansions.get? name = some expansion → expansion.state = .opened →
      ∃ before, OpenBefore sets closed name before ∧
        PlanTracked ctx staged.1 before name (action.names "expansion_id" name) rest expansion.members) ∧
    PlanTracked ctx staged.1 before expansion_id (action.names "expansion_id" expansion_id) rest staged.2
  have hbatched : Batched (middle, members) := by
    refine foldlM_keeps (I := Batched) ?_ staged ⟨h.batch, rfl, hstart, hmembers⟩
    rintro staged item staged' hitem ⟨hb, hsame, hsets, htracked⟩ hadd
    have hlist : item.1 ∈ statedItems action := by
      have hm := List.fst_mem_of_mem_zipIdx hitem
      simpa [statedItems, hname, hlisted, Json.list?] using hm
    have hfollowed := hitems item.1 hlist
    have hkept := htracked.addMember hadd hb hfollowed hbefore
    obtain ⟨fields, spec, between, hadding, hplan, hmember⟩ := addMember_ok hadd
    refine ⟨addMember_batch hadd hb hlist, ?_, ?_, ?_⟩
    · rw [hplan, ← hsame]
      cases hadding.superseding <;> rfl
    · intro name expansion hget hopen
      obtain ⟨before, hbefore, htracked⟩ := hsets name expansion hget hopen
      exact ⟨before, hbefore, htracked.addMember hadd hb hfollowed hbefore⟩
    · rw [hmember]
      refine hkept.put memberDocument_created ?_ (hb.fresh hadding.fresh)
      rw [hplan]
      exact get?_put_self
  obtain ⟨hb, hsame, hsets, htracked⟩ := hbatched
  refine ⟨⟨hb.named, hb.kept, hb.replaced⟩, fun name hset => ?_, fun name expansion' hget hopen => ?_⟩
  · rw [get?_put, hsame]
    split
    · simp
    · exact h.present name hset
  rcases of_put hget with ⟨rfl, rfl⟩ | ⟨hne, hget⟩
  · rw [hself] at htracked
    exact ⟨before, hbefore, ((htracked.follow hb).pin middle.working).congr rfl rfl⟩
  · rw [hsame] at hget
    obtain ⟨before, hbefore, htracked⟩ := hsets name expansion' hget hopen
    rw [names_other hstated hne] at htracked
    exact ⟨before, hbefore, htracked.congr rfl rfl⟩

end

theorem Applied.open_sets (happly : Applied P ctx plan action plan') (hitems : ∀ item ∈ statedItems action,
      itemFollowed P ctx.decision_id ctx.tasks.get? sets closed action rest item = true)
    (h : OpenSets ctx sets closed (action :: rest) plan) :
    OpenSets ctx sets (closes action ++ closed) rest plan' := by
  cases happly with
  | expanded name stated found isOpen items staged =>
    rw [closes, if_neg (by rw [name]; decide)]
    exact h.expanded hitems name stated found isOpen items staged
  | closed name stated _ isSealed => exact h.sealed name stated isSealed
  | revised revising =>
    rw [closes, if_neg revising.edit.name.1]
    exact h.revised revising

theorem planDecision_open_sets (hplan : planDecision P ctx sets actions = .ok planned)
    (hnamed : TasksNamed ctx.tasks.get?)
    (hfollowed : actionsFollowed P ctx.decision_id ctx.tasks.get? sets [] actions = true)
    (hsets : ∀ name expansion, sets.get? name = some expansion → expansion.state = .opened →
      ∀ id member, expansion.members.get? id = some member → member.task_id = id ∧
        ∃ task, Names ctx.tasks.get? id member true false task) :
    ∃ closed, OpenSets ctx sets closed [] planned.toPlan := by
  let Left (items : List (ParsedAction × Nat)) (plan : Plan) : Prop := ∃ closed,
    actionsFollowed P ctx.decision_id ctx.tasks.get? sets closed (items.map Prod.fst) = true ∧
      OpenSets ctx sets closed (items.map Prod.fst) plan
  have hleft : Left [] planned.toPlan := by
    refine foldlM_suffix (I := Left) ?_ (planDecision_folded hplan)
      ⟨[], ?_, ⟨hnamed, ?_, ?_⟩, fun _ h => h, ?_⟩
    · rintro item items before after ⟨closed, hall, hopen⟩ happly
      simp only [List.map_cons, actionsFollowed, Bool.and_eq_true, List.all_eq_true] at hall
      exact ⟨_, hall.2, (applyAction_ok happly).open_sets hall.1 hopen⟩
    · rw [List.zipIdx_map_fst]
      exact hfollowed
    · exact fun id old hold => ⟨old, hold, .refl old⟩
    · intro replaced successor hget
      cases hget
    · intro name expansion hget hopen
      refine ⟨expansion.members, ⟨expansion, hget, hopen, rfl, List.not_mem_nil⟩, ?_, fun _ _ h => h⟩
      intro id member hmember
      obtain ⟨hname, task, hnames⟩ := hsets name expansion hget hopen id member hmember
      exact ⟨hname, ⟨_, (hnames.version rfl).1⟩, .entered (followed_current _) hnames fun _ => ⟨rfl, rfl⟩⟩
  obtain ⟨closed, -, hopen⟩ := hleft
  exact ⟨closed, hopen⟩

theorem OpenSets.current (h : OpenSets ctx sets closed [] plan)
    (hget : plan.expansions.get? name = some expansion) (hopen : expansion.state = .opened)
    (hmember : expansion.members.get? id = some member) :
    member.task_id = id ∧ ∃ task, Names plan.working.get? id member true false task := by
  obtain ⟨before, -, htracked⟩ := h.tracked name expansion hget hopen
  obtain ⟨hname, -, hstanding⟩ := htracked.entries id member hmember
  refine ⟨hname, ?_⟩
  cases hstanding with
  | entered followed names =>
    simp only [Scheduling.followed, Bool.and_eq_true, Bool.not_eq_true', true_and] at followed
    obtain ⟨hfresh, hsame⟩ := followed
    subst hfresh
    subst hsame
    exact ⟨_, names⟩
  | awaited _ followed => cases followed

end

-- Every run

section
variable {P : Platform} {id : String} {after : RunTables}

theorem openMembers_contains (hset : expansions.get? name = some expansion) (hopen : expansion.state = .opened)
    (hmember : expansion.members.get? id = some member) : (openMembers expansions).contains id = true := by
  have hkeep : ∀ (other : Expansion) (blocked : Dict String WaitingReason), blocked.contains id = true →
      (other.members.keys.foldl (fun blocked member => blocked.putNew member .expansionMemberOpen)
        blocked).contains id = true := by
    intro other
    induction other.members.keys with
    | nil => exact fun blocked h => h
    | cons key keys ih => exact fun blocked h => ih _ (held_putNew h)
  have hm : expansion ∈ expansions.values.filter fun expansion => expansion.state ≠ .sealed := by
    simp [Dict.mem_values.mpr ⟨name, hset⟩, hopen]
  let Held (blocked : Dict String WaitingReason) : Prop := blocked.contains id = true
  refine foldl_marks (I := Held) hm ?_ (fun blocked other => hkeep other blocked) _
  intro blocked
  refine foldl_marks (I := Held) (Dict.mem_keys.mpr ⟨member, hmember⟩) ?_ (fun _ _ => held_putNew) _
  intro blocked
  change (blocked.putNew id .expansionMemberOpen).contains id = true
  rw [contains, get?_putNew]
  split
  · rfl
  case isFalse hnot =>
    rw [isSome_iff_ne_none]
    exact fun hnone => hnot ⟨rfl, hnone⟩

theorem joinBlocked_open (hset : expansions.get? name = some expansion) (hopen : expansion.state = .opened)
    (hmember : expansion.members.get? id = some member) :
    (joinBlocked expansions tasks resolved).get? id ≠ none := by
  rw [← isSome_iff_ne_none]
  change (joinBlocked expansions tasks resolved).contains id = true
  unfold joinBlocked
  have hstart := openMembers_contains hset hopen hmember
  generalize openMembers expansions = blocked at hstart
  induction tasks.values generalizing blocked with
  | nil => exact hstart
  | cons task rest ih => exact ih _ (held_joins task.joins hstart)

/-- Every member of every open set names the version and the flags of a current task. -/
def OpenSetsCurrent (tables : RunTables) : Prop :=
  ∀ name expansion, tables.task_expansions.get? name = some expansion → expansion.state = .opened →
    ∀ id member, expansion.members.get? id = some member → member.task_id = id ∧
      ∃ task, Names tables.task? id member true false task

theorem OpenSetsCurrent.handled (h : OpenSetsCurrent tables)
    (htable : after.task? = fun name => if name = id then some new else tables.task? name)
    (hsets : after.task_expansions = tables.task_expansions)
    (hnone : ∀ name expansion, tables.task_expansions.get? name = some expansion →
      expansion.state = .opened → expansion.members.get? id = none) : OpenSetsCurrent after := by
  intro name expansion hset hopen id' member hmember
  rw [hsets] at hset
  obtain ⟨hname, task, hnames⟩ := h name expansion hset hopen id' member hmember
  refine ⟨hname, task, hnames.congr ?_⟩
  rw [congrFun htable id']
  apply if_neg
  rintro rfl
  rw [hnone name expansion hset hopen] at hmember
  cases hmember

theorem OpenSetsCurrent.decided (h : OpenSetsCurrent tables) (hnamed : TasksNamed tables.task?)
    (hfollowed : actionsFollowed P submission.parsed.decision_id tables.task? tables.task_expansions []
      submission.parsed.actions = true)
    (planned : PlannedFrom P tables submission ctx plan after) : OpenSetsCurrent after := by
  have hcontext : ctx.tasks.get? = tables.task? := funext fun _ => planned.context
  have htable : after.task? = plan.working.get? := funext planned.written
  rw [← hcontext] at hnamed hfollowed
  rw [← planned.decision_id] at hfollowed
  obtain ⟨closed, hopens⟩ := planDecision_open_sets planned.planned hnamed hfollowed (by
    rw [hcontext]
    exact h)
  intro name expansion hset hopen id member hmember
  rw [htable]
  obtain ⟨revisions, decisions, rfl⟩ := planned.after
  change (writeExpansions plan.toPlan tables.task_expansions).get? name = some expansion at hset
  rw [get?_writeExpansions] at hset
  split at hset
  case h_1 hget =>
    cases hset
    exact hopens.current hget hopen hmember
  case h_2 hnone => exact absurd hnone (hopens.present name (by rw [hset]; simp))

theorem PlanMove.open_sets (hm : PlanMove P store key request after) (hok : MembersFollow P store request)
    (hnamed : TasksNamed (store.db.task? key)) (h : OpenSetsCurrent (store.db.runs key)) :
    OpenSetsCurrent after := by
  cases hm with
  | kept tasks _ expansions =>
    intro name expansion hset hopen id member hmember
    rw [expansions] at hset
    obtain ⟨hname, task, hnames⟩ := h name expansion hset hopen id member hmember
    exact ⟨hname, task, hnames.congr (by rw [RunTables.task?, tasks, RunTables.task?])⟩
  | opened _ memberless =>
    intro name expansion hset hopen id member hmember
    rcases of_put hset with ⟨-, rfl⟩ | ⟨-, hset⟩
    · rw [memberless.2] at hmember
      cases hmember
    · exact h name expansion hset hopen id member hmember
  | @claimed _ _ _ _ _ id _ _ _ _ claimed =>
    refine h.handled (updateTask_task? claimed.stored) rfl fun name expansion hset hopen => ?_
    obtain ⟨tasks, expansions, -, -, hexpansions, hready⟩ := claimed.found
    rw [expansionsOf_ok hexpansions] at hready
    cases hmember : expansion.members.get? id with
    | none => rfl
    | some member => exact absurd hready.joined (joinBlocked_open hset hopen hmember)
  | @reported _ _ _ _ _ id document _ reporting =>
    have hstored := task?_of_tasksOf reporting.unchanged
    refine h.handled (updateTask_task? hstored) rfl fun name expansion hset hopen => ?_
    cases hmember : expansion.members.get? id with
    | none => rfl
    | some member =>
      obtain ⟨-, task, hnames⟩ := h name expansion hset hopen id member hmember
      have hsame := hstored.symm.trans hnames.found
      cases hsame
      have hclaimed := reporting.claimed
      rw [hnames.unclaimed] at hclaimed
      cases hclaimed
  | decided read _ planned =>
    have hfollowed := decisionMeets_ok hok read planned
    have hkey := (readSubmission_ok read).1
    simp only [membersFollow, hkey] at hfollowed
    exact h.decided hnamed hfollowed planned

theorem TableMove.named
    (h : TableMove P store key request table) (hn : TasksNamed (store.db.task? key)) : TasksNamed table := by
  cases h with
  | same => exact hn
  | @handled _ id _ _ found handled =>
    intro name task hget
    dsimp only at hget
    split at hget
    case isTrue hname =>
      cases hget
      rw [hname, handled.fixed.task_id]
      exact hn id _ found
    · exact hn name task hget
  | decided _ planned =>
    refine WorkSteps.named planned.steps fun name task hget => hn name task ?_
    rw [← hget]
    exact planned.context.symm

theorem open_sets_reached (h : (schedulingStore P).Reach (MembersFollow P) store) (key : RunKey) :
    OpenSetsCurrent (store.db.runs key) := by
  suffices hall : TasksNamed (store.db.task? key) ∧ OpenSetsCurrent (store.db.runs key) from hall.2
  refine h.invariant (I := fun store => TasksNamed (store.db.task? key) ∧
    OpenSetsCurrent (store.db.runs key)) ?_ ?_
  · rintro _ ⟨projects, rfl⟩
    refine ⟨?_, ?_⟩
    · intro id task htask
      cases htask
    · intro name expansion hset
      cases hset
  · rintro store request ⟨hnamed, hsets⟩ hok
    exact ⟨(serve_table P store request key).named hnamed,
      (serve_plan P store request key).open_sets hok hnamed hsets⟩

/-- Every member of an open set names a task that is not superseded, by its current
version and with its flags, so that no seal finds the set stale. This holds in every
run whose decisions all follow the members they replace. -/
theorem open_sets_current (h : (schedulingStore P).Reach (MembersFollow P) store) (key : RunKey)
    {expansion : Expansion} (hset : (store.db.runs key).task_expansions.get? name = some expansion)
    (hopen : expansion.state = .opened) (hmember : expansion.members.get? id = some member) :
    member.task_id = id ∧
      (∃ task, store.db.task? key member.task_id = some task ∧ task.state ≠ .superseded ∧
        member.revision = some task.revision ∧ member.digest = task.digest ∧
        member.required = task.required ∧ member.required_outcomes = task.required_outcomes) ∧
      ∀ tasks, tasksOf P (store.db.runs key) = .ok tasks → currentMember tasks member = true := by
  obtain ⟨hname, task, hnames⟩ := open_sets_reached h key name expansion hset hopen id member hmember
  obtain ⟨hrevision, hdigest⟩ := hnames.version rfl
  obtain ⟨hrequired, houtcomes⟩ := hnames.flags rfl
  refine ⟨hname, ⟨task, ?_, (Task.live_iff.mp hnames.live).1, hrevision, hdigest, hrequired, houtcomes⟩, ?_⟩
  · rw [hname]
    exact hnames.found
  · intro tasks htasks
    have hget : tasks.get? member.task_id = some task := by
      rw [hname, tasksOf_ok htasks]
      exact hnames.found
    simp [currentMember, hget, hdigest]

end

namespace Sample

def batch (expansion_id : String) (tasks : List Json) : Json :=
  .object [("action", .str "expand_graph"), ("expansion_id", .str expansion_id), ("tasks", .list tasks)]

def twoSets : List Request :=
  opened ++ [.createExpansion key "g" (expansion "f") 0, submit "1" 0 [batch "e" [task "1"]]]

def replaceIn (name : String) : Request := submit "2" 1 [batch name [successor "1" "d1.1"]]

def memberStates (store : Store) (name : String) : List (String × Option TaskState) :=
  (((store.db.runs key).task_expansions.get? name).filter fun expansion =>
    expansion.state = .opened).elim [] fun expansion =>
      expansion.members.entries.map fun entry => (entry.1, (store.db.task? key entry.1).map Task.state)

theorem mem_memberStates {id : String} (h : (id, some state) ∈ memberStates store name) :
    ∃ expansion member task, (store.db.runs key).task_expansions.get? name = some expansion ∧
      expansion.state = .opened ∧ expansion.members.get? id = some member ∧
      store.db.task? key id = some task ∧ task.state = state := by
  unfold memberStates at h
  cases hset : ((store.db.runs key).task_expansions.get? name).filter fun expansion =>
      expansion.state = .opened with
  | none => simp [hset] at h
  | some expansion =>
    simp only [hset, elim_some, List.mem_map, Prod.mk.injEq, map_eq_some_iff] at h
    obtain ⟨entry, hentry, rfl, task, htask, hstate⟩ := h
    simp only [filter_eq_some_iff, decide_eq_true_eq] at hset
    exact ⟨expansion, entry.2, task, hset.1, hset.2, get?_eq_some.mpr hentry, htask, hstate⟩

end Sample

open Sample (after twoSets replaceIn key system memberStates)

/-- A set that is expanded takes in the successor of its member, by its current version. -/
theorem open_sets_current_replaced : ∃ expansion member task,
      ((after (twoSets ++ [replaceIn "e"])).db.runs key).task_expansions.get? "e" = some expansion ∧
      expansion.members.get? "d2.1" = some member ∧
      (after (twoSets ++ [replaceIn "e"])).db.task? key member.task_id =
        some task ∧ member.revision = some task.revision ∧ member.digest = task.digest := by
  have hreach : system.Reach (MembersFollow Sample.platform)
      (after (twoSets ++ [replaceIn "e"])) :=
    .of_run Sample.start_initial (by decide +kernel)
  have hmember : ("d2.1", some TaskState.queued) ∈
      memberStates (after (twoSets ++ [replaceIn "e"])) "e" := by
    decide +kernel
  generalize after (twoSets ++ [replaceIn "e"]) = store at hreach hmember ⊢
  obtain ⟨expansion, member, -, hset, hopen, hget, -⟩ := Sample.mem_memberStates hmember
  obtain ⟨-, ⟨task, htask, -, hrevision, hdigest, -⟩, -⟩ := open_sets_current hreach key hset hopen hget
  exact ⟨expansion, member, task, hset, hget, htask, hrevision, hdigest⟩

/-- A task is replaced by one of another set, and the open set it is a member of keeps it. -/
theorem retired_member_kept : ∃ store expansion member task, system.Reach System.free store ∧
      (store.db.runs key).task_expansions.get? "e" = some expansion ∧
      expansion.state = .opened ∧ expansion.members.get? "d1.1" = some member ∧
      store.db.task? key "d1.1" = some task ∧ task.state = .superseded := by
  have hmember : ("d1.1", some TaskState.superseded) ∈
      memberStates (after (twoSets ++ [replaceIn "f"])) "e" := by
    decide +kernel
  obtain ⟨expansion, member, task, hset, hopen, hget, htask, hstate⟩ := Sample.mem_memberStates hmember
  exact ⟨_, expansion, member, task, Sample.after_reach _, hset, hopen, hget, htask, hstate⟩

end Karajan.Scheduling
