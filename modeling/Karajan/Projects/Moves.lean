import Karajan.Projects.Registry

/-!
# What a transaction writes

A transaction that is done either answers from the record of its command, or has
written one of a few things: a project, an update of one, a preview, a decision
from a preview, or an execution policy.
-/

namespace Karajan.Projects

open Dict Check

/-- The preview may be applied by this principal now: it is their own, has not expired, and was
made against this catalog. -/
def Reviewed (w : World) (db : Database) (project_id principal : String) (preview : Preview) : Prop :=
  ∃ review, preview.review = some review ∧ review.principal = principal ∧ w.now < review.expires_at ∧
    review.compiler_identity = w.build.compiler_identity ∧
    review.catalog_binding = (effectiveCatalog db.catalogs project_id).binding

/-- A decision of the owner from a preview that shows this configuration. -/
structure Decides (lib : Library) (w : World) (db : Database) (principal project_id preview_id : String)
    (project : Project) (preview : Preview) (configuration : Json) : Prop where
  found : db.projects.get? project_id = some project
  owner : db.owners.get? project_id = some principal
  row : db.previews.get? preview_id = some ⟨preview, some configuration⟩
  own : preview.project_id = project_id
  reviewed : Reviewed w db project_id principal preview
  revision : preview.project_revision = project.revision
  digest : lib.digest configuration = preview.configuration_digest

def Request.previewed : Request → Option String
  | .preview project_id _ | .rulebookPreview project_id _ _ => some project_id
  | .create _ | .update .. | .apply .. | .rulebookPublish .. | .executionPolicy .. => none

def Request.decided : Request → Option (String × String)
  | .apply project_id preview_id _ | .rulebookPublish project_id preview_id _ => some (project_id, preview_id)
  | .create _ | .update .. | .preview .. | .rulebookPreview .. | .executionPolicy .. => none

def Binds (db : Database) (versions : Dict (String × String × Int) Version) : Prop :=
  versions = db.versions ∨
    ∃ key version, db.versions.get? key = none ∧ key ∉ db.conflicts ∧ versions = db.versions.put key version

/-- What a decision installs: the configuration of its preview, under the next revision. -/
structure Installs (lib : Library) (w : World) (db : Database) (project_id preview_id : String)
    (project : Project) (preview : Preview) (configuration : Json) (db' : Database) : Prop where
  project : ∃ project', db'.projects = db.projects.put project_id project' ∧
    project'.revision = project.revision + 1 ∧
    project'.configuration.revision = project.configuration.revision + 1 ∧
    project'.configuration.digest = some preview.configuration_digest ∧
    project'.configuration.preview_id = some preview_id
  catalogs : db'.catalogs = applyCatalog lib w db.catalogs project_id configuration
  versions : Binds db db'.versions
  previews : db'.previews = db.previews
  owners : db'.owners = db.owners
  conflicts : db'.conflicts = db.conflicts
  policies : db'.policies = db.policies

/-- A preview as it is stored: of the one who asks, against the project and the catalog as they are. -/
structure Previews (db : Database) (principal project_id : String) (preview : Preview) : Prop where
  own : preview.project_id = project_id
  revision : ∃ project, db.projects.get? project_id = some project ∧ preview.project_revision = project.revision
  review : ∃ review, preview.review = some review ∧ review.principal = principal ∧
    review.catalog_binding = (effectiveCatalog db.catalogs project_id).binding

/-- What a transaction that is done has written, but for the record of its command. -/
inductive Move (lib : Library) (w : World) (db : Database) (call : Call) : Result → Database → Prop
  | created {request : ProjectCreate} {project : Project} (hrequest : call.request = .create request)
      (absent : db.projects.get? project.id = none) (first : project.revision = 1)
      (owned : db.owners.get? project.id = none) :
      Move lib w db call (.project project) { db with
        projects := db.projects.put project.id project, owners := db.owners.put project.id call.principal }
  | updated {project_id : String} {expected_revision : Int} {request : ProjectUpdate} {project project' : Project}
      (hrequest : call.request = .update project_id expected_revision request)
      (found : db.projects.get? project_id = some project)
      (revision : project'.revision = project.revision + 1)
      (kept : project'.configuration = project.configuration) :
      Move lib w db call (.project project') { db with projects := db.projects.put project_id project' }
  | previewed {project_id : String} {preview : Preview} {row : PreviewRow}
      (hrequest : call.request.previewed = some project_id)
      (absent : db.previews.get? preview.preview_id = none)
      (previews : Previews db call.principal project_id preview) (shown : row.preview = preview) :
      Move lib w db call (.preview preview) { db with previews := db.previews.put preview.preview_id row }
  | decided {project_id preview_id : String} {result : Result} {project : Project} {preview : Preview}
      {configuration : Json} {db' : Database} (hrequest : call.request.decided = some (project_id, preview_id))
      (decides : Decides lib w db call.principal project_id preview_id project preview configuration)
      (installs : Installs lib w db project_id preview_id project preview configuration db') :
      Move lib w db call result db'
  | registered {project_id : String} {request configuration : Json} {project : Project} {registered : Registered}
      (hrequest : call.request = .executionPolicy project_id request)
      (owner : db.owners.get? project_id = some call.principal)
      (found : db.projects.get? project_id = some project)
      (stored : storedConfiguration db project_id project = some configuration)
      (digest : registered.policy.configuration_digest = lib.digest configuration)
      (next : registered.policy.revision = latestPolicy db project_id registered.policy.id + 1)
      (agreeing : ∀ key old, db.policies.get? key = some old → key.1 = project_id →
        agrees old.policy registered.policy)
      (unregistered : db.policies.get? (project_id, registered.policy.id, registered.policy.revision) = none) :
      Move lib w db call (.policy registered) { db with
        policies := db.policies.put (project_id, registered.policy.id, registered.policy.revision) registered }

/-- What a transaction is done with: the record of its command, or a move that is recorded. -/
inductive Done (lib : Library) (w : World) (db : Database) (call : Call) : Result → Database → Prop
  | replayed {row : CommandRow} (recorded : db.commands.get? (call.principal, call.key) = some row) :
      Done lib w db call row.result db
  | moved {result : Result} {db' : Database} (new : db.commands.get? (call.principal, call.key) = none)
      (move : Move lib w db call result db') : Done lib w db call result (Database.record lib db' call result)

-- Parts

theorem replay_ok (h : replay lib db call = .ok answer) :
    (∃ row, db.commands.get? (call.principal, call.key) = some row ∧ answer = some row.result) ∨
      db.commands.get? (call.principal, call.key) = none ∧ answer = none := by
  simp only [replay, bind_ok] at h
  obtain ⟨_, -, _, -, h⟩ := h
  split at h
  case h_1 hnone => exact .inr ⟨hnone, (pure_ok.mp h).symm⟩
  case h_2 row hrow =>
    simp only [bind_ok, pure_ok] at h
    obtain ⟨_, -, rfl⟩ := h
    exact .inl ⟨row, hrow, rfl⟩

open Progress (done pending)

theorem unlessReplayed_done (h : unlessReplayed lib db call transaction = .ok (.done result db'))
    (hmoved : db.commands.get? (call.principal, call.key) = none → transaction = .ok (.done result db') →
      Done lib w db call result db') : Done lib w db call result db' := by
  simp only [unlessReplayed, bind_ok] at h
  obtain ⟨answer, hreplay, h⟩ := h
  rcases replay_ok hreplay with ⟨row, hrow, rfl⟩ | ⟨hnone, rfl⟩
  · obtain ⟨rfl, rfl⟩ := done.inj (pure_ok.mp h)
    exact .replayed hrow
  · exact hmoved hnone h

theorem current_ok (h : current db project_id revision = .ok project) :
    db.projects.get? project_id = some project ∧ revision = project.revision := by
  simp only [current, bind_ok, need_ok, ensure_ok, decide_eq_true_eq, pure_ok] at h
  obtain ⟨found, hfound, _, hrevision, rfl⟩ := h
  exact ⟨hfound, hrevision⟩

theorem requireOwner_ok (h : requireOwner db project_id principal = .ok u) :
    db.owners.get? project_id = some principal := by
  simp only [requireOwner, bind_ok, need_ok, ensure_ok, decide_eq_true_eq] at h
  obtain ⟨owner, howner, rfl⟩ := h
  exact howner

theorem checkPreview_ok (h : checkPreview w db project_id preview principal = .ok u) :
    Reviewed w db project_id principal preview := by
  simp only [checkPreview, bind_ok, need_ok, ensure_ok, decide_eq_true_eq] at h
  obtain ⟨review, hreview, _, hprincipal, _, hnow, _, hcompiler, _, hcatalog, -⟩ := h
  exact ⟨review, hreview, hprincipal, hnow, hcompiler, hcatalog⟩

theorem findPreview_some (h : findPreview db project_id preview_id = some row) :
    db.previews.get? preview_id = some row ∧ row.preview.project_id = project_id := by
  simpa [findPreview, Option.filter_eq_some_iff] using h

theorem guardIdentity_ok (h : guardIdentity db project_id document compiled = .ok u)
    (hkey : versionKey project_id document = some key) : key ∉ db.conflicts := by
  simp only [guardIdentity, hkey, bind_ok, ensure_ok, decide_eq_true_eq] at h
  obtain ⟨_, hnot, -⟩ := h
  exact hnot

theorem bindVersion_binds {compiled : Compiled}
    (h : bindVersion w db project_id document compiled = .ok (key, version, versions)) : Binds db versions := by
  simp only [bindVersion, bind_ok, need_ok] at h
  obtain ⟨_, hguard, found, hkey, h⟩ := h
  split at h
  · obtain ⟨-, -, rfl⟩ := pure_ok.mp h
    exact .inl rfl
  case h_2 hnone =>
    obtain ⟨-, -, rfl⟩ := pure_ok.mp h
    exact .inr ⟨_, _, hnone, guardIdentity_ok hguard hkey, rfl⟩

theorem bindApplied_binds (h : bindApplied w db project_id status document = .ok versions) :
    Binds db versions := by
  simp only [bindApplied] at h
  split at h
  · simp only [bind_ok, pure_ok] at h
    obtain ⟨⟨key, version, versions'⟩, hbind, rfl⟩ := h
    exact bindVersion_binds hbind
  · obtain rfl := pure_ok.mp h
    exact .inl rfl

theorem previewIdentity_shown : (previewIdentity db project_id preview document compiled).review = preview.review ∧
    (previewIdentity db project_id preview document compiled).project_id = preview.project_id ∧
    (previewIdentity db project_id preview document compiled).project_revision = preview.project_revision := by
  simp only [previewIdentity]
  split
  · split <;> exact ⟨rfl, rfl, rfl⟩
  · exact ⟨rfl, rfl, rfl⟩

theorem insertPreview_move (h : insertPreview lib db call preview configuration = .ok (.done result db'))
    (hnew : db.commands.get? (call.principal, call.key) = none)
    (hrequest : call.request.previewed = some project_id)
    (hpreviews : Previews db call.principal project_id preview) : Done lib w db call result db' := by
  simp only [insertPreview, bind_ok, ensure_ok, Bool.not_eq_true', contains_eq_false, pure_ok, done.injEq] at h
  obtain ⟨_, habsent, rfl, rfl⟩ := h
  exact .moved hnew (.previewed hrequest habsent hpreviews rfl)

-- Transactions

theorem insertProject_done (hrequest : call.request = .create request)
    (h : insertProject lib w db call request = .ok (.done result db')) : Done lib w db call result db' := by
  simp only [insertProject, bind_ok] at h
  obtain ⟨_, -, h⟩ := h
  refine unlessReplayed_done h fun hnew h => ?_
  simp only [bind_ok, ensure_ok, Bool.and_eq_true, Bool.not_eq_true', contains_eq_false, pure_ok,
    done.injEq] at h
  obtain ⟨_, ⟨habsent, howned⟩, rfl, rfl⟩ := h
  exact .moved hnew (@Move.created lib w db call request { id := w.id, .. } hrequest habsent rfl howned)

theorem saveUpdate_done (hrequest : call.request = .update project_id expected_revision request)
    (h : saveUpdate lib w db call project_id expected_revision request = .ok (.done result db')) :
    Done lib w db call result db' := by
  simp only [saveUpdate, bind_ok] at h
  obtain ⟨_, -, h⟩ := h
  refine unlessReplayed_done h fun hnew h => ?_
  simp only [bind_ok, pure_ok, done.injEq] at h
  obtain ⟨project, hcurrent, rfl, rfl⟩ := h
  exact .moved hnew (.updated hrequest (current_ok hcurrent).1 rfl rfl)

theorem storePreview_done (hrequest : call.request = .preview project_id requested)
    (hown : preview.project_id = project_id)
    (hreview : ∃ review, preview.review = some review ∧ review.principal = call.principal)
    (h : storePreview lib db call project_id preview configuration document compiled = .ok (.done result db')) :
    Done lib w db call result db' := by
  refine unlessReplayed_done h fun hnew h => ?_
  simp only [bind_ok] at h
  obtain ⟨project, hcurrent, h⟩ := h
  obtain ⟨hfound, hrevision⟩ := current_ok hcurrent
  obtain ⟨review, hreview, hprincipal⟩ := hreview
  obtain ⟨hr, hp, hv⟩ := @previewIdentity_shown db project_id
    (preview.bind (effectiveCatalog db.catalogs project_id)) document compiled
  refine insertPreview_move h hnew (hrequest ▸ rfl) ⟨hp.trans hown, ⟨project, hfound, ?_⟩,
    { review with catalog_binding := (effectiveCatalog db.catalogs project_id).binding }, ?_, hprincipal, rfl⟩
  · rw [hv]
    exact Int.ofNat.inj hrevision
  · rw [hr]
    simp [Preview.bind, hreview]

theorem storeRulebook_done (hrequest : call.request = .rulebookPreview project_id requested expected_revision)
    (hown : preview.project_id = project_id) (hrevision : (preview.project_revision : Int) = expected_revision)
    (h : storeRulebook lib w db call project_id expected_revision preview configuration document compiled =
      .ok (.done result db')) : Done lib w db call result db' := by
  refine unlessReplayed_done h fun hnew h => ?_
  simp only [bind_ok] at h
  obtain ⟨project, hcurrent, _, hcheck, h⟩ := h
  obtain ⟨hfound, hcurrent⟩ := current_ok hcurrent
  obtain ⟨review, hreview, hprincipal, -, -, hcatalog⟩ := checkPreview_ok hcheck
  obtain ⟨hr, hp, hv⟩ := @previewIdentity_shown db project_id preview document compiled
  refine insertPreview_move h hnew (hrequest ▸ rfl)
    ⟨hp.trans hown, ⟨project, hfound, ?_⟩, review, hr.trans hreview, hprincipal, hcatalog⟩
  rw [hv]
  exact Int.ofNat.inj (hrevision.trans hcurrent)

theorem applyConfiguration_done (hrequest : call.request = .apply project_id preview_id expected_revision)
    (h : applyConfiguration lib w db call project_id preview_id expected_revision = .ok (.done result db')) :
    Done lib w db call result db' := by
  refine unlessReplayed_done h fun hnew h => ?_
  simp only [bind_ok, need_ok, ensure_ok, decide_eq_true_eq, unchangedContent, pure_ok, done.injEq] at h
  obtain ⟨project, hcurrent, _, howner, ⟨preview, shown⟩, hrow, _, hcheck, _, -, configuration, hshown, _, -, _,
    hrevision, _, hdigest, fields, -, _, -, versions, hversions, rfl, rfl⟩ := h
  obtain ⟨hrow, hown⟩ := findPreview_some hrow
  dsimp only at hshown
  subst hshown
  refine .moved hnew (.decided (hrequest ▸ rfl) ⟨(current_ok hcurrent).1, requireOwner_ok howner, hrow, hown,
    checkPreview_ok hcheck, hrevision, hdigest⟩ ?_)
  exact ⟨⟨_, rfl, rfl, rfl, rfl, rfl⟩, rfl, bindApplied_binds hversions, rfl, rfl, rfl, rfl⟩

theorem publishRulebook_done (hrequest : call.request = .rulebookPublish project_id preview_id expected_revision)
    (h : publishRulebook lib w db call project_id preview_id expected_revision = .ok (.done result db')) :
    Done lib w db call result db' := by
  refine unlessReplayed_done h fun hnew h => ?_
  simp only [bind_ok, need_ok, ensure_ok, decide_eq_true_eq, unchangedContent, pure_ok, done.injEq] at h
  obtain ⟨project, hcurrent, _, howner, ⟨preview, shown⟩, hrow, _, hcheck, _, -, configuration, hshown, _,
    hrevision, _, hdigest, fields, -, document, -, compiled, -, _, -, ⟨key, version, versions⟩, hversions, rfl,
    rfl⟩ := h
  obtain ⟨hrow, hown⟩ := findPreview_some hrow
  dsimp only at hshown
  subst hshown
  refine .moved hnew (.decided (hrequest ▸ rfl) ⟨(current_ok hcurrent).1, requireOwner_ok howner, hrow, hown,
    checkPreview_ok hcheck, hrevision, hdigest⟩ ?_)
  exact ⟨⟨_, rfl, rfl, rfl, rfl, rfl⟩, rfl, bindVersion_binds hversions, rfl, rfl, rfl, rfl⟩

theorem registerExecutionPolicy_done (hrequest : call.request = .executionPolicy project_id request)
    (h : registerExecutionPolicy lib w db call project_id request = .ok (.done result db')) :
    Done lib w db call result db' := by
  refine unlessReplayed_done h fun hnew h => ?_
  simp only [bind_ok, need_ok, ensure_ok, decide_eq_true_eq, pure_ok, done.injEq, Bool.not_eq_true',
    contains_eq_false] at h
  obtain ⟨_, howner, project, hfound, _, -, configuration, hstored, policy, hpolicy, _, hnext, _, hagree, _,
    hnone, rfl, rfl⟩ := h
  simp only [validatePolicy, bind_ok, ensure_ok, decide_eq_true_eq] at hpolicy
  obtain ⟨parsed, -, _, hdigest, hpolicy⟩ := hpolicy
  split at hpolicy
  · cases hpolicy
  · obtain rfl := pure_ok.mp hpolicy
    refine .moved hnew (@Move.registered lib w db call project_id request configuration project
      ⟨parsed, _, _, _⟩ hrequest (requireOwner_ok howner) hfound hstored hdigest hnext (fun key old hold hkey => ?_) hnone)
    have hall := List.all_eq_true.mp hagree (key, old) (get?_eq_some.mp hold)
    simpa [hkey] using hall

-- Commands

def Drafted (call : Call) : Stage → Prop
  | .drafted preview _ _ _ =>
    match call.request with
    | .preview project_id _ => preview.project_id = project_id ∧
        ∃ review, preview.review = some review ∧ review.principal = call.principal
    | .rulebookPreview project_id _ expected_revision =>
      preview.project_id = project_id ∧ (preview.project_revision : Int) = expected_revision
    | .create _ | .update .. | .apply .. | .rulebookPublish .. | .executionPolicy .. => True
  | .asked | .located _ | .read _ => True

theorem unlessReplayed_pending
    (h : unlessReplayed lib db call transaction = .ok (.pending stage)) : transaction = .ok (.pending stage) := by
  simp only [unlessReplayed, bind_ok] at h
  obtain ⟨answer, -, h⟩ := h
  split at h
  · cases pure_ok.mp h
  · exact h

theorem unlessReplayed_asked (h : unlessReplayed lib db call (return .pending .asked) = .ok (.done result db')) :
    Done lib w db call result db' := by
  refine unlessReplayed_done h fun _ h => ?_
  cases pure_ok.mp h

theorem ask_done (h : ask lib w db call = .ok (.done result db')) : Done lib w db call result db' := by
  cases hrequest : call.request with
  | create =>
    simp only [ask, hrequest] at h
    exact unlessReplayed_asked h
  | update | preview =>
    simp only [ask, hrequest, bind_ok] at h
    obtain ⟨_, -, h⟩ := h
    exact unlessReplayed_asked h
  | apply =>
    simp only [ask, hrequest, bind_ok] at h
    obtain ⟨_, -, _, -, h⟩ := h
    exact applyConfiguration_done hrequest h
  | rulebookPreview =>
    simp only [ask, hrequest, bind_ok] at h
    obtain ⟨_, -, h⟩ := h
    refine unlessReplayed_done h fun _ h => ?_
    simp only [bind_ok, pure_ok, reduceCtorEq, and_false, exists_false] at h
  | rulebookPublish =>
    simp only [ask, hrequest, bind_ok] at h
    obtain ⟨_, -, _, -, h⟩ := h
    exact publishRulebook_done hrequest h
  | executionPolicy =>
    simp only [ask, hrequest, bind_ok] at h
    obtain ⟨_, -, h⟩ := h
    exact registerExecutionPolicy_done hrequest h

theorem draftRulebook_drafted (hrequest : call.request = .rulebookPreview project_id document expected_revision)
    (h : draftRulebook lib w db call project_id document expected_revision = .ok (.pending stage)) :
    Drafted call stage := by
  have h := unlessReplayed_pending h
  simp only [bind_ok, pure_ok, pending.injEq] at h
  obtain ⟨project, hcurrent, _, -, rfl⟩ := h
  simp only [Drafted, hrequest]
  exact ⟨rfl, (current_ok hcurrent).2.symm⟩

theorem ask_drafted (h : ask lib w db call = .ok (.pending stage)) : Drafted call stage := by
  have hasked : ∀ {stage}, unlessReplayed lib db call (return .pending .asked) = .ok (.pending stage) →
      Drafted call stage := by
    intro stage h
    obtain rfl := pending.inj (pure_ok.mp (unlessReplayed_pending h))
    trivial
  cases hrequest : call.request with
  | create =>
    simp only [ask, hrequest] at h
    exact hasked h
  | update | preview =>
    simp only [ask, hrequest, bind_ok] at h
    obtain ⟨_, -, h⟩ := h
    exact hasked h
  | rulebookPreview =>
    simp only [ask, hrequest, bind_ok] at h
    obtain ⟨_, -, h⟩ := h
    exact draftRulebook_drafted hrequest h
  | _ => cases stage <;> simp [Drafted, hrequest]

theorem advance_done (hdrafted : Drafted call stage)
    (h : advance lib w db call stage = .ok (.done result db')) : Done lib w db call result db' := by
  simp only [advance] at h
  split at h
  case h_1 request _ hrequest => exact insertProject_done hrequest h
  · simp only [bind_ok, pure_ok, reduceCtorEq, and_false, exists_false] at h
  case h_3 hrequest => exact saveUpdate_done hrequest h
  · simp only [bind_ok, pure_ok, reduceCtorEq, and_false, exists_false] at h
  · simp only [draftPreview, bind_ok, pure_ok, reduceCtorEq, and_false, exists_false] at h
  case h_6 hrequest =>
    simp only [Drafted, hrequest] at hdrafted
    exact storePreview_done hrequest hdrafted.1 hdrafted.2 h
  case h_7 hrequest =>
    simp only [Drafted, hrequest] at hdrafted
    exact storeRulebook_done hrequest hdrafted.1 hdrafted.2 h
  · cases h

theorem insertPreview_done : insertPreview lib db call preview configuration ≠ .ok (.pending stage) := by
  intro h
  simp only [insertPreview, bind_ok, pure_ok, reduceCtorEq, and_false, exists_false] at h

theorem advance_drafted (h : advance lib w db call stage = .ok (.pending next)) : Drafted call next := by
  simp only [advance] at h
  split at h
  · simp only [insertProject, bind_ok] at h
    obtain ⟨_, -, h⟩ := h
    have h := unlessReplayed_pending h
    simp only [bind_ok, pure_ok, reduceCtorEq, and_false, exists_false] at h
  · simp only [bind_ok, pure_ok, pending.injEq] at h
    obtain ⟨_, -, rfl⟩ := h
    trivial
  · simp only [saveUpdate, bind_ok] at h
    obtain ⟨_, -, h⟩ := h
    have h := unlessReplayed_pending h
    simp only [bind_ok, pure_ok, reduceCtorEq, and_false, exists_false] at h
  · simp only [bind_ok, pure_ok, pending.injEq] at h
    obtain ⟨_, -, rfl⟩ := h
    trivial
  case h_5 hrequest =>
    simp only [draftPreview, bind_ok, pure_ok, pending.injEq] at h
    obtain ⟨_, -, rfl⟩ := h
    simp only [Drafted, hrequest]
    exact ⟨rfl, _, rfl, rfl⟩
  · have h := unlessReplayed_pending h
    simp only [bind_ok] at h
    obtain ⟨_, -, h⟩ := h
    exact absurd h insertPreview_done
  · have h := unlessReplayed_pending h
    simp only [bind_ok] at h
    obtain ⟨_, -, _, -, h⟩ := h
    exact absurd h insertPreview_done
  · cases h

end Karajan.Projects
