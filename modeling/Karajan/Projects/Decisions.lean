import Karajan.Projects.Moves

/-!
# Runs of the registry

Commands take their transactions in any order, and each may be lost between two
of them. A decision applies to what was reviewed: it is the owner's, from a
preview of their own that has not expired, and it installs that configuration on
the project and against the catalog that the preview was made for.
-/

namespace Karajan.Projects

open List Dict Check

structure State where
  db : Database
  pending : List (Call × Stage)

inductive Action
  | call (call : Call) (w : World)
  | advance (index : Nat) (w : World)

variable (lib : Library)

def State.transact (s : State) : Action → Option (Call × World × Except Fault Progress)
  | .call call w => some (call, w, ask lib w s.db call)
  | .advance index w => (s.pending[index]?).map fun p => (p.1, w, advance lib w s.db p.1 p.2)

def State.others (s : State) : Action → List (Call × Stage)
  | .call .. => s.pending
  | .advance index _ => s.pending.eraseIdx index

def State.step (s : State) (a : Action) : State :=
  match s.transact lib a with
  | none => s
  | some (call, _, .ok (.pending stage)) => { s with pending := s.others a ++ [(call, stage)] }
  | some (_, _, .ok (.done _ db)) => ⟨db, s.others a⟩
  | some (_, _, .error _) => { s with pending := s.others a }

def CatalogsSound (catalogs : Dict String Catalog) : Prop := ∀ id catalog, catalogs.get? id = some catalog →
  catalog.digest = some (lib.digest catalog.content.json) ∧ catalog.content.resources ≠ .null

/-- A database from before decisions were reviewed: it has no previews that can be applied, and
what executed as two things is a conflict. -/
structure Legacy (db : Database) : Prop where
  previews : ∀ id row, db.previews.get? id = some row → row.preview.review = none
  versions : ∀ key version, db.versions.get? key = some version → key ∉ db.conflicts
  catalogs : CatalogsSound lib db.catalogs
  policies : db.policies = .empty

def registry : System State Action where
  initial s := Legacy lib s.db ∧ s.pending = []
  step := State.step lib

/-- The action is a transaction that answers a command for the first time. -/
def Accepts (s : State) (a : Action) (call : Call) (w : World) (result : Result) (db : Database) : Prop :=
  s.transact lib a = some (call, w, .ok (.done result db)) ∧
    s.db.commands.get? (call.principal, call.key) = none

def Request.revises : Request → Option String
  | .update project_id .. | .apply project_id .. | .rulebookPublish project_id .. => some project_id
  | .create _ | .preview .. | .rulebookPreview .. | .executionPolicy .. => none

-- Laws

/-- A project moves to its next revision by an update, an apply or a publish, and never otherwise. -/
def Revises (s : State) (a : Action) : Prop :=
  ∀ id project, s.db.projects.get? id = some project →
    ∃ project', (s.step lib a).db.projects.get? id = some project' ∧
      ((∃ call w result db, Accepts lib s a call w result db ∧ call.request.revises = some id) →
        project'.revision = project.revision + 1) ∧
      ((∀ call w result db, Accepts lib s a call w result db → call.request.revises ≠ some id) →
        project' = project)

/-- The preview was answered to this principal, and was of the project and its catalog as they were. -/
def Made (s : State) (principal preview_id : String) (preview : Preview) : Prop :=
  ∃ t a call w db, (registry lib).Reach System.free t ∧ (registry lib).Path System.free (t.step lib a) s ∧
    Accepts lib t a call w (.preview preview) db ∧ call.principal = principal ∧
    preview.preview_id = preview_id ∧ call.request.previewed = some preview.project_id ∧
    Previews t.db principal preview.project_id preview

/-- A decision is one from a preview that its principal made and that still holds. -/
def Decided (s : State) (a : Action) : Prop :=
  ∀ call w result db project_id preview_id, Accepts lib s a call w result db →
    call.request.decided = some (project_id, preview_id) →
    ∃ project preview configuration,
      Decides lib w s.db call.principal project_id preview_id project preview configuration ∧
      Installs lib w s.db project_id preview_id project preview configuration (s.step lib a).db ∧
      Made lib s call.principal preview_id preview

/-- The catalog has its next revision exactly where its content changes, which is by a decision. -/
structure Catalogs (s : State) (a : Action) : Prop where
  revision : ∀ id, (effectiveCatalog (s.step lib a).db.catalogs id).content ≠
      (effectiveCatalog s.db.catalogs id).content ↔
    (effectiveCatalog (s.step lib a).db.catalogs id).revision = (effectiveCatalog s.db.catalogs id).revision + 1
  same : ∀ id, (effectiveCatalog (s.step lib a).db.catalogs id).content = (effectiveCatalog s.db.catalogs id).content →
    effectiveCatalog (s.step lib a).db.catalogs id = effectiveCatalog s.db.catalogs id
  decided : ∀ id, (∀ call w result db preview_id, Accepts lib s a call w result db →
      call.request.decided ≠ some (id, preview_id)) →
    effectiveCatalog (s.step lib a).db.catalogs id = effectiveCatalog s.db.catalogs id

def Agree (a b : Policy) : Prop :=
  ∀ key x y, (policyComponents a).get? key = some x → (policyComponents b).get? key = some y → x = y

/-- The policies of a project, by id and revision: each has those before it, and their parts agree. -/
structure PoliciesSound (policies : Dict (String × String × Nat) Registered) : Prop where
  named : ∀ key registered, policies.get? key = some registered →
    key.2 = (registered.policy.id, registered.policy.revision)
  consecutive : ∀ key registered, policies.get? key = some registered →
    0 < key.2.2 ∧ ∀ n, 0 < n → n ≤ key.2.2 → policies.contains (key.1, key.2.1, n)
  agree : ∀ key key' r r', policies.get? key = some r → policies.get? key' = some r' → key.1 = key'.1 →
    Agree r.policy r'.policy

structure Sound (s : State) : Prop where
  drafted : ∀ p ∈ s.pending, Drafted p.1 p.2
  versions : ∀ key version, s.db.versions.get? key = some version → key ∉ s.db.conflicts
  catalogs : CatalogsSound lib s.db.catalogs
  policies : PoliciesSound s.db.policies

/-- What is bound stays bound, and what is in conflict stays so. -/
structure Later (db db' : Database) : Prop where
  owners : ∀ id owner, db.owners.get? id = some owner → db'.owners.get? id = some owner
  previews : ∀ id row, db.previews.get? id = some row → db'.previews.get? id = some row
  versions : ∀ key version, db.versions.get? key = some version → db'.versions.get? key = some version
  conflicts : db'.conflicts = db.conflicts
  policies : ∀ key r, db.policies.get? key = some r → db'.policies.get? key = some r

variable {lib}

-- Moves

theorem Binds.later (h : Binds db versions) :
    ∀ key version, db.versions.get? key = some version → versions.get? key = some version := by
  rcases h with rfl | ⟨key, version, hnone, -, rfl⟩
  · exact fun _ _ h => h
  · exact fun _ _ => get?_put_new hnone

theorem Binds.sound (h : Binds db versions)
    (hs : ∀ key version, db.versions.get? key = some version → key ∉ db.conflicts) :
    ∀ key version, versions.get? key = some version → key ∉ db.conflicts := by
  rcases h with rfl | ⟨bound, version, -, hnot, rfl⟩
  · exact hs
  · intro key version' hversion
    rw [get?_put] at hversion
    split at hversion
    case isTrue heq => exact heq ▸ hnot
    · exact hs key version' hversion

theorem mem_foldl_max {l : List Nat} : l.foldl max 0 = 0 ∨ l.foldl max 0 ∈ l := by
  induction l using reverseRecOn with
  | nil => exact .inl rfl
  | append_singleton l n ih =>
    rw [foldl_append, foldl_cons, foldl_nil]
    rcases Nat.le_total n (l.foldl max 0) with h | h
    · rw [Nat.max_eq_left h]
      rcases ih with h0 | hmem
      · exact .inl h0
      · exact .inr (mem_append_left _ hmem)
    · rw [Nat.max_eq_right h]
      exact .inr (by simp)

theorem latestPolicy_mem {id project_id : String} (h : 0 < latestPolicy db project_id id) :
    db.policies.contains (project_id, id, latestPolicy db project_id id) := by
  rcases mem_foldl_max (l := (db.policies.keys.filter fun key => key.1 = project_id && key.2.1 = id).map (·.2.2))
    with h0 | hmem
  · simp [latestPolicy, h0] at h
  · obtain ⟨key, hkey, hrevision⟩ := List.mem_map.mp hmem
    obtain ⟨hkey, hsame⟩ := List.mem_filter.mp hkey
    simp only [Bool.and_eq_true, decide_eq_true_eq] at hsame
    have heq : key = (project_id, id, latestPolicy db project_id id) :=
      Prod.ext hsame.1 (Prod.ext hsame.2 hrevision)
    exact Dict.contains_iff.mpr (heq ▸ hkey)

theorem Agree.symm (h : Agree x y) : Agree y x := fun key p q hp hq => (h key q p hq hp).symm

theorem agrees_agree (h : agrees x y) : Agree x y := by
  intro key p q hp hq
  have hall := List.all_eq_true.mp h (key, p) (get?_eq_some.mp hp)
  simp only [hq, Option.all_some, decide_eq_true_eq] at hall
  exact hall.symm

theorem PoliciesSound.put (h : PoliciesSound db.policies) {project_id : String}
    (hnext : registered.policy.revision = latestPolicy db project_id registered.policy.id + 1)
    (hagree : ∀ key old, db.policies.get? key = some old → key.1 = project_id → agrees old.policy registered.policy) :
    PoliciesSound (db.policies.put (project_id, registered.policy.id, registered.policy.revision) registered) := by
  constructor
  case named =>
    intro key r hr
    rcases of_put hr with ⟨heq, rfl⟩ | ⟨-, hr⟩
    · exact heq ▸ rfl
    · exact h.named key r hr
  case consecutive =>
    have hgrow : ∀ key, db.policies.contains key →
        (db.policies.put (project_id, registered.policy.id, registered.policy.revision) registered).contains key :=
      fun key hkey => Dict.contains_iff.mpr (Dict.mem_keys_put.mpr (.inr (Dict.contains_iff.mp hkey)))
    intro key r hr
    rw [get?_put] at hr
    split at hr
    case isTrue heq =>
      subst heq
      dsimp only
      refine ⟨by omega, fun n hpos hle => ?_⟩
      rcases Nat.lt_or_ge n registered.policy.revision with hlt | hge
      · have hlatest : 0 < latestPolicy db project_id registered.policy.id := by omega
        obtain ⟨old, hold⟩ := Option.isSome_iff_exists.mp (latestPolicy_mem hlatest)
        exact hgrow _ ((h.consecutive _ old hold).2 n hpos (by dsimp only; omega))
      · obtain rfl : n = registered.policy.revision := by omega
        exact contains_of_get? get?_put_self
    · obtain ⟨hpos, hall⟩ := h.consecutive key r hr
      exact ⟨hpos, fun n hn hle => hgrow _ (hall n hn hle)⟩
  case agree =>
    intro key key' r r' hr hr' hsame
    rw [get?_put] at hr hr'
    split at hr
    case isTrue heq =>
      cases hr
      subst heq
      split at hr'
      · cases hr'
        intro k x y hx hy
        exact Option.some.inj (hx.symm.trans hy)
      · exact (agrees_agree (hagree key' r' hr' hsame.symm)).symm
    · split at hr'
      case isTrue heq =>
        cases hr'
        subst heq
        exact agrees_agree (hagree key r hr hsame)
      · exact h.agree key key' r r' hr hr' hsame

theorem Move.later (h : Move lib w db call result db') : Later db db' := by
  cases h with
  | created hrequest absent first owned =>
    exact ⟨fun _ _ => get?_put_new owned, fun _ _ h => h, fun _ _ h => h, rfl, fun _ _ h => h⟩
  | updated => exact ⟨fun _ _ h => h, fun _ _ h => h, fun _ _ h => h, rfl, fun _ _ h => h⟩
  | previewed hrequest absent =>
    exact ⟨fun _ _ h => h, fun _ _ => get?_put_new absent, fun _ _ h => h, rfl, fun _ _ h => h⟩
  | decided hrequest decides installs =>
    refine ⟨?_, ?_, installs.versions.later, installs.conflicts, ?_⟩
    · rw [installs.owners]
      exact fun _ _ h => h
    · rw [installs.previews]
      exact fun _ _ h => h
    · rw [installs.policies]
      exact fun _ _ h => h
  | registered hrequest owner found stored digest next agreeing unregistered =>
    exact ⟨fun _ _ h => h, fun _ _ h => h, fun _ _ h => h, rfl,
      fun _ _ => get?_put_new unregistered⟩

theorem Move.catalogs (h : Move lib w db call result db') :
    db'.catalogs = db.catalogs ∨ ∃ project_id preview_id configuration,
      call.request.decided = some (project_id, preview_id) ∧
      db'.catalogs = applyCatalog lib w db.catalogs project_id configuration := by
  cases h with
  | decided hrequest decides installs => exact .inr ⟨_, _, _, hrequest, installs.catalogs⟩
  | _ => exact .inl rfl

theorem catalogContent_resources (h : catalogContent w configuration = some content) :
    content.resources ≠ .null := by
  simp only [catalogContent] at h
  split at h
  · cases h
  · split at h
    · cases h
    case h_2 hnot =>
      split at h
      · obtain rfl := Option.some.inj h
        exact hnot
      · cases h

/-- Applying a configuration leaves a catalog as it is, or gives it its next revision with other
content. -/
theorem applyCatalog_effective (hs : CatalogsSound lib catalogs) (id : String) :
    effectiveCatalog (applyCatalog lib w catalogs project_id configuration) id = effectiveCatalog catalogs id ∨
      id = project_id ∧
      (effectiveCatalog (applyCatalog lib w catalogs project_id configuration) id).revision =
        (effectiveCatalog catalogs id).revision + 1 ∧
      (effectiveCatalog (applyCatalog lib w catalogs project_id configuration) id).content ≠
        (effectiveCatalog catalogs id).content := by
  simp only [applyCatalog]
  split
  · exact .inl rfl
  case h_2 content hcontent =>
    split
    · exact .inl rfl
    case isFalse hdigest =>
      by_cases hid : id = project_id
      · subst hid
        refine .inr ⟨rfl, by simp [effectiveCatalog], fun hsame => hdigest ?_⟩
        simp [effectiveCatalog, get?_put_self] at hsame
        cases hfound : catalogs.get? id with
        | none =>
          -- The content of no catalog has no resources, but what is applied has.
          rw [hfound] at hsame
          simp only [Option.getD_none] at hsame
          rw [hsame] at hcontent
          exact absurd rfl (catalogContent_resources hcontent)
        | some catalog =>
          simp only [effectiveCatalog, hfound, Option.getD_some] at hsame ⊢
          rw [hsame]
          exact (hs id catalog hfound).1
      · refine .inl ?_
        simp only [effectiveCatalog]
        rw [get?_put_of_ne (Ne.symm hid)]

theorem applyCatalog_sound (hs : CatalogsSound lib catalogs) :
    CatalogsSound lib (applyCatalog lib w catalogs project_id configuration) := by
  intro id catalog hcatalog
  simp only [applyCatalog] at hcatalog
  split at hcatalog
  · exact hs id catalog hcatalog
  case h_2 content hcontent =>
    split at hcatalog
    · exact hs id catalog hcatalog
    · rcases of_put hcatalog with ⟨-, rfl⟩ | ⟨-, hcatalog⟩
      · exact ⟨rfl, catalogContent_resources hcontent⟩
      · exact hs id catalog hcatalog

theorem Move.sound (h : Move lib w db call result db')
    (hs : Sound lib ⟨db, pending⟩) : Sound lib ⟨db', pending⟩ := by
  refine ⟨hs.drafted, ?_, ?_, ?_⟩
  · cases h with
    | decided hrequest decides installs =>
      rw [installs.conflicts]
      exact installs.versions.sound hs.versions
    | _ => exact hs.versions
  · rcases h.catalogs with hsame | ⟨_, _, _, -, happlied⟩
    · rw [hsame]
      exact hs.catalogs
    · rw [happlied]
      exact applyCatalog_sound hs.catalogs
  · cases h with
    | decided hrequest decides installs =>
      rw [installs.policies]
      exact hs.policies
    | registered hrequest owner found stored digest next agreeing => exact hs.policies.put next agreeing
    | _ => exact hs.policies

theorem Move.projects (h : Move lib w db call result db') {id : String}
    (hfound : db.projects.get? id = some project) : ∃ project', db'.projects.get? id = some project' ∧
      (call.request.revises = some id → project'.revision = project.revision + 1) ∧
      (call.request.revises ≠ some id → project' = project) := by
  cases h with
  | @created request new hrequest absent =>
    refine ⟨project, get?_put_new absent hfound, ?_, fun _ => rfl⟩
    simp [hrequest, Request.revises]
  | @updated project_id expected_revision request old new hrequest found revision =>
    by_cases hid : project_id = id
    · subst hid
      cases found.symm.trans hfound
      exact ⟨new, get?_put_self, fun _ => revision, fun hnot => absurd (hrequest ▸ rfl) hnot⟩
    · refine ⟨project, (get?_put_of_ne hid).trans hfound, fun hsame => ?_, fun _ => rfl⟩
      rw [hrequest] at hsame
      exact absurd (Option.some.inj hsame) hid
  | previewed hrequest =>
    refine ⟨project, hfound, fun hsame => ?_, fun _ => rfl⟩
    generalize call.request = request at hrequest hsame
    cases request <;> simp [Request.previewed, Request.revises] at hrequest hsame
  | @decided project_id preview_id _ old _ _ _ hrequest decides installs =>
    obtain ⟨new, hprojects, hrevision, -⟩ := installs.project
    have hrevises : call.request.revises = some project_id := by
      generalize call.request = request at hrequest
      cases request <;> simp [Request.decided, Request.revises] at hrequest ⊢ <;> exact hrequest.1
    rw [hprojects]
    by_cases hid : project_id = id
    · subst hid
      cases decides.found.symm.trans hfound
      exact ⟨new, get?_put_self, fun _ => hrevision, fun hnot => absurd hrevises hnot⟩
    · refine ⟨project, (get?_put_of_ne hid).trans hfound, fun hsame => ?_, fun _ => rfl⟩
      exact absurd (Option.some.inj (hrevises.symm.trans hsame)) hid
  | registered hrequest =>
    refine ⟨project, hfound, ?_, fun _ => rfl⟩
    simp [hrequest, Request.revises]

end Karajan.Projects
