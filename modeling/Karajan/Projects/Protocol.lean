import Karajan.Projects.Decisions

/-!
# Decisions apply to what was reviewed

What holds of one transaction holds of every order of transactions: the revision
of a project counts its updates and decisions, a decision installs the
configuration of a preview that still holds, and what is bound stays bound.
-/

namespace Karajan.Projects

variable {s t : State}

-- Steps

theorem others_subset (s : State) (a : Action) : ∀ p ∈ s.others a, p ∈ s.pending := by
  cases a with
  | call => exact fun _ h => h
  | advance index => exact fun p h => List.mem_of_mem_eraseIdx h

open State (transact step)

theorem transact_done (hs : Sound lib s)
    (h : s.transact lib a = some (call, w, .ok (.done result db'))) : Done lib w s.db call result db' := by
  cases a with
  | call =>
    obtain ⟨rfl, rfl, hask⟩ : _ ∧ _ ∧ _ := by simpa [transact] using h
    exact ask_done hask
  | advance index =>
    obtain ⟨p, hp, heq⟩ := Option.map_eq_some_iff.mp h
    obtain ⟨rfl, rfl, hadvance⟩ : _ ∧ _ ∧ _ := by simpa using heq
    exact advance_done (hs.drafted p (List.mem_of_getElem? hp)) hadvance

theorem transact_drafted (h : s.transact lib a = some (call, w, .ok (.pending stage))) : Drafted call stage := by
  cases a with
  | call =>
    obtain ⟨rfl, rfl, hask⟩ : _ ∧ _ ∧ _ := by simpa [transact] using h
    exact ask_drafted hask
  | advance index =>
    obtain ⟨p, hp, heq⟩ := Option.map_eq_some_iff.mp h
    obtain ⟨rfl, rfl, hadvance⟩ : _ ∧ _ ∧ _ := by simpa using heq
    exact advance_drafted hadvance

theorem step_done (h : s.transact lib a = some (call, w, .ok (.done result db'))) :
    s.step lib a = ⟨db', s.others a⟩ := by
  simp only [step, h]

theorem accepts_move (hs : Sound lib s) (h : Accepts lib s a call w result db) :
    ∃ db', Move lib w s.db call result db' ∧ db = Database.record lib db' call result := by
  obtain ⟨htransact, hnew⟩ := h
  have hdone := transact_done hs htransact
  cases hdone with
  | replayed recorded => simp [hnew] at recorded
  | moved new move => exact ⟨_, move, rfl⟩

theorem step_cases (hs : Sound lib s) (a : Action) :
    (s.step lib a).db = s.db ∨ ∃ call w result db, Accepts lib s a call w result db ∧ s.step lib a = ⟨db, s.others a⟩ := by
  cases htransact : s.transact lib a with
  | none => exact .inl (by simp only [step, htransact])
  | some taken =>
    obtain ⟨call, w, progress⟩ := taken
    cases progress with
    | error => exact .inl (by simp only [step, htransact])
    | ok progress =>
      cases progress with
      | pending => exact .inl (by simp only [step, htransact])
      | done result db =>
        have hdone := transact_done hs htransact
        rw [step_done htransact]
        cases hdone with
        | replayed => exact .inl rfl
        | moved new move => exact .inr ⟨call, w, result, _, ⟨htransact, new⟩, rfl⟩

theorem accepts_step (h : Accepts lib s a call w result db) : s.step lib a = ⟨db, s.others a⟩ := step_done h.1

theorem accepts_unique (h : Accepts lib s a call w result db) (h' : Accepts lib s a call' w' result' db') :
    call = call' ∧ w = w' ∧ result = result' ∧ db = db' := by
  have heq := h.1.symm.trans h'.1
  simpa using heq

theorem Sound.mono (h : Sound lib ⟨db, pending⟩)
    (hdrafted : ∀ p ∈ pending', Drafted p.1 p.2) : Sound lib ⟨db, pending'⟩ :=
  ⟨hdrafted, h.versions, h.catalogs, h.policies⟩

theorem step_sound (hs : Sound lib s) (a : Action) : Sound lib (s.step lib a) := by
  have hothers : ∀ p ∈ s.others a, Drafted p.1 p.2 := fun p hp => hs.drafted p (others_subset s a p hp)
  cases htransact : s.transact lib a with
  | none =>
    simp only [step, htransact]
    exact hs
  | some taken =>
    obtain ⟨call, w, progress⟩ := taken
    cases progress with
    | error =>
      simp only [step, htransact]
      exact hs.mono hothers
    | ok progress =>
      cases progress with
      | pending stage =>
        simp only [step, htransact]
        refine hs.mono fun p hp => ?_
        rcases List.mem_append.mp hp with hp | hp
        · exact hothers p hp
        · obtain rfl := List.mem_singleton.mp hp
          exact transact_drafted htransact
      | done result db =>
        rw [step_done htransact]
        have hdone := transact_done hs htransact
        cases hdone with
        | replayed => exact hs.mono hothers
        | moved new move =>
          have hmoved := move.sound hs
          exact ⟨hothers, hmoved.versions, hmoved.catalogs, hmoved.policies⟩

open Karajan.System (free)

theorem sound (h : (registry lib).Reach free s) : Sound lib s := by
  refine h.invariant (fun s hinit => ?_) fun s a hs _ => step_sound hs a
  obtain ⟨hlegacy, hpending⟩ := hinit
  refine ⟨by simp [hpending], hlegacy.versions, hlegacy.catalogs, ?_⟩
  rw [hlegacy.policies]
  exact ⟨by simp, by simp, by simp⟩

theorem Later.refl (db : Database) : Later db db :=
  ⟨fun _ _ h => h, fun _ _ h => h, fun _ _ h => h, rfl, fun _ _ h => h⟩

theorem Later.trans (h : Later db db') (h' : Later db' db₂) : Later db db₂ :=
  ⟨fun k v hv => h'.owners k v (h.owners k v hv), fun k v hv => h'.previews k v (h.previews k v hv),
    fun k v hv => h'.versions k v (h.versions k v hv), h'.conflicts.trans h.conflicts,
    fun k v hv => h'.policies k v (h.policies k v hv)⟩

theorem step_later (hs : Sound lib s) (a : Action) : Later s.db (s.step lib a).db := by
  rcases step_cases hs a with hsame | ⟨call, w, result, db, haccepts, hstep⟩
  · rw [hsame]
    exact .refl _
  · obtain ⟨db', hmove, rfl⟩ := accepts_move hs haccepts
    rw [hstep]
    have hlater := hmove.later
    exact ⟨hlater.owners, hlater.previews, hlater.versions, hlater.conflicts, hlater.policies⟩

theorem path_later (hs : Sound lib s) (hp : (registry lib).Path free s t) : Sound lib t ∧ Later s.db t.db := by
  induction hp with
  | refl => exact ⟨hs, .refl _⟩
  | step _ _ ih => exact ⟨step_sound ih.1 _, ih.2.trans (step_later ih.1 _)⟩

-- Each step

theorem revises (hs : Sound lib s) (a : Action) : Revises lib s a := by
  intro id project hproject
  rcases step_cases hs a with hsame | ⟨call, w, result, db, haccepts, hstep⟩
  · refine ⟨project, by rw [hsame]; exact hproject, ?_, fun _ => rfl⟩
    rintro ⟨call, w, result, db, haccepts, hrequest⟩
    obtain ⟨db', hmove, rfl⟩ := accepts_move hs haccepts
    obtain ⟨project', hproject', hrevised, -⟩ := hmove.projects hproject
    have hdb : db'.projects = s.db.projects := by
      rw [← hsame, accepts_step haccepts]
      rfl
    rw [hdb, hproject] at hproject'
    cases hproject'
    exact hrevised hrequest
  · obtain ⟨db', hmove, rfl⟩ := accepts_move hs haccepts
    obtain ⟨project', hproject', hrevised, hkept⟩ := hmove.projects hproject
    refine ⟨project', by rw [hstep]; exact hproject', ?_, fun hnone => hkept (hnone call w result _ haccepts)⟩
    rintro ⟨call', w', result', db'', haccepts', hrequest⟩
    obtain ⟨rfl, -⟩ := accepts_unique haccepts haccepts'
    exact hrevised hrequest

def MadeBy (lib : Library) (u : State) (principal preview_id : String) (preview : Preview) : Prop :=
  ∃ t a call w db, (registry lib).Reach free t ∧ u = t.step lib a ∧
    Accepts lib t a call w (.preview preview) db ∧ call.principal = principal ∧
    preview.preview_id = preview_id ∧ call.request.previewed = some preview.project_id ∧
    Previews t.db principal preview.project_id preview

theorem madeBy_step (ht : (registry lib).Reach free t) (hrow : (t.step lib a).db.previews.get? preview_id = some row)
    (hshown : row.preview = preview) (hreview : preview.review = some review) :
    (∃ row, t.db.previews.get? preview_id = some row ∧ row.preview = preview) ∨
      MadeBy lib (t.step lib a) review.principal preview_id preview := by
  rcases step_cases (sound ht) a with hsame | ⟨call, w, result, db, haccepts, hstep⟩
  · refine .inl ⟨row, ?_, hshown⟩
    rw [← hsame]
    exact hrow
  · obtain ⟨db', hmove, rfl⟩ := accepts_move (sound ht) haccepts
    have hrow' : db'.previews.get? preview_id = some row := by
      rw [hstep] at hrow
      exact hrow
    cases hmove with
    | @previewed project_id stored new hrequest absent previews shown =>
      by_cases hid : stored.preview_id = preview_id
      · subst hid
        obtain rfl : new = row := by simpa using hrow'
        obtain rfl : stored = preview := shown.symm.trans hshown
        obtain ⟨made, hmade, hprincipal, -⟩ := previews.review
        cases hmade.symm.trans hreview
        have hown := previews.own
        subst hown
        exact .inr ⟨t, a, call, w, _, ht, rfl, haccepts, hprincipal.symm, rfl, hrequest, hprincipal ▸ previews⟩
      · simp only [Dict.get?_put_of_ne hid] at hrow'
        exact .inl ⟨row, hrow', hshown⟩
    | decided hrequest decides installs =>
      rw [installs.previews] at hrow'
      exact .inl ⟨row, hrow', hshown⟩
    | _ => exact .inl ⟨row, hrow', hshown⟩

theorem made (h : (registry lib).Reach free s) (hrow : s.db.previews.get? preview_id = some row) (hshown : row.preview = preview)
    (hreview : preview.review = some review) : Made lib s review.principal preview_id preview := by
  have hsince : ∃ u, (registry lib).Reach free u ∧ (registry lib).Path free u s ∧
      MadeBy lib u review.principal preview_id preview := by
    refine h.since (P := fun s => ∃ row, s.db.previews.get? preview_id = some row ∧ row.preview = preview)
      (fun i hi hthere => ?_) (fun t a ht _ hthere => ?_) ⟨row, hrow, hshown⟩
    · obtain ⟨row, hrow, rfl⟩ := hthere
      have hnone := hi.1.previews preview_id row hrow
      rw [hnone] at hreview
      cases hreview
    · obtain ⟨row, hrow, hshown⟩ := hthere
      exact madeBy_step ht hrow hshown hreview
  obtain ⟨u, -, hpath, t, a, call, w, db, ht, rfl, haccepts⟩ := hsince
  exact ⟨t, a, call, w, db, ht, hpath, haccepts⟩

theorem decided (h : (registry lib).Reach free s) (a : Action) : Decided lib s a := by
  intro call w result db project_id preview_id haccepts hdecided
  obtain ⟨db', hmove, rfl⟩ := accepts_move (sound h) haccepts
  cases hmove with
  | @decided project_id' preview_id' _ project preview configuration _ hrequest decides installs =>
    obtain ⟨rfl, rfl⟩ := Prod.mk.inj (Option.some.inj (hrequest.symm.trans hdecided))
    refine ⟨project, preview, configuration, decides, ?_, ?_⟩
    · rw [accepts_step haccepts]
      exact ⟨installs.project, installs.catalogs, installs.versions, installs.previews, installs.owners,
        installs.conflicts, installs.policies⟩
    · obtain ⟨review, hreview, hprincipal, -⟩ := decides.reviewed
      rw [← hprincipal]
      exact made h decides.row rfl hreview
  | created hrequest | updated hrequest | registered hrequest => simp [hrequest, Request.decided] at hdecided
  | previewed hrequest =>
    generalize call.request = request at hrequest hdecided
    cases request <;> simp [Request.previewed, Request.decided] at hrequest hdecided

theorem catalogs_cases (hs : Sound lib s) (a : Action) (id : String) :
    effectiveCatalog (s.step lib a).db.catalogs id = effectiveCatalog s.db.catalogs id ∨
      (∃ call w result db preview_id, Accepts lib s a call w result db ∧
        call.request.decided = some (id, preview_id)) ∧
      (effectiveCatalog (s.step lib a).db.catalogs id).revision = (effectiveCatalog s.db.catalogs id).revision + 1 ∧
      (effectiveCatalog (s.step lib a).db.catalogs id).content ≠ (effectiveCatalog s.db.catalogs id).content := by
  rcases step_cases hs a with hsame | ⟨call, w, result, db, haccepts, hstep⟩
  · exact .inl (by rw [hsame])
  · obtain ⟨db', hmove, rfl⟩ := accepts_move hs haccepts
    have hafter : (s.step lib a).db.catalogs = db'.catalogs := by
      rw [hstep]
      rfl
    rw [hafter]
    rcases hmove.catalogs with hkept | ⟨project_id, preview_id, configuration, hdecided, happlied⟩
    · exact .inl (by rw [hkept])
    · rw [happlied]
      rcases @applyCatalog_effective lib s.db.catalogs w project_id configuration hs.catalogs id with
        hkept | ⟨rfl, hrevision, hcontent⟩
      · exact .inl hkept
      · exact .inr ⟨⟨call, w, result, _, preview_id, haccepts, hdecided⟩, hrevision, hcontent⟩

theorem catalogs (hs : Sound lib s) (a : Action) : Catalogs lib s a := by
  constructor
  case revision =>
    intro id
    rcases catalogs_cases hs a id with hsame | ⟨-, hrevision, hcontent⟩
    · rw [hsame]
      simp
    · exact ⟨fun _ => hrevision, fun _ => hcontent⟩
  case same =>
    intro id hcontent
    rcases catalogs_cases hs a id with hsame | ⟨-, -, hother⟩
    · exact hsame
    · exact absurd hcontent hother
  case decided =>
    intro id hnone
    rcases catalogs_cases hs a id with hsame | ⟨⟨call, w, result, db, preview_id, haccepts, hdecided⟩, -⟩
    · exact hsame
    · exact absurd hdecided (hnone call w result db preview_id haccepts)

/-- A policy is registered by the owner, for the configuration of the project. -/
def Registers (lib : Library) (s : State) (a : Action) : Prop :=
  ∀ call w registered db project_id request, Accepts lib s a call w (.policy registered) db →
    call.request = .executionPolicy project_id request →
    s.db.owners.get? project_id = some call.principal ∧
    ∃ project configuration, s.db.projects.get? project_id = some project ∧
      storedConfiguration s.db project_id project = some configuration ∧
      registered.policy.configuration_digest = lib.digest configuration

theorem registers (hs : Sound lib s) (a : Action) : Registers lib s a := by
  intro call w registered db project_id request haccepts hrequest
  obtain ⟨db', hmove, rfl⟩ := accepts_move hs haccepts
  generalize hresult : Result.policy registered = result at hmove
  cases hmove with
  | registered hasked owner found stored digest =>
    cases hresult
    obtain ⟨rfl, rfl⟩ := Request.executionPolicy.inj (hasked.symm.trans hrequest)
    exact ⟨owner, _, _, found, stored, digest⟩
  | decided hdecided => simp [hrequest, Request.decided] at hdecided
  | created | updated | previewed => cases hresult

/-- In every order of transactions: the revision of a project counts its updates and decisions; a
decision is the owner's, from a preview of their own that still holds, and installs what it showed;
a version that is bound stays so and is no conflict; a catalog has its next revision exactly where
its content changes; a policy is registered after those before it, in agreement with the others. -/
theorem reviewed_decisions (lib : Library) (h : (registry lib).Reach free s) :
    (∀ a, Revises lib s a ∧ Decided lib s a ∧ Catalogs lib s a ∧ Registers lib s a) ∧
    (∀ key version, s.db.versions.get? key = some version → key ∉ s.db.conflicts) ∧
    PoliciesSound s.db.policies ∧
    ∀ t, (registry lib).Path free s t → Later s.db t.db := by
  have hs := sound h
  exact ⟨fun a => ⟨revises hs a, decided h a, catalogs hs a, registers hs a⟩, hs.versions, hs.policies,
    fun t hp => (path_later hs hp).2⟩

-- A sample

namespace DecisionSample

def build : Build where
  compiler_identity := "b"
  validator := ⟨"v", "f"⟩
  validate_configuration _ := []
  compile_rulebook _ := .ok ⟨"s", "c", .object [], [], []⟩
  draft _ := some ⟨.object [], .list []⟩
  resource_catalog_issues _ := []
  parse_policy _ := .error "EXECUTION_POLICY_INVALID"
  policy_error _ _ := none

def library : Library where
  isspace _ := false
  isprintable _ := true
  digest _ := "d"
  policy_digest _ := "d"
  identity
    | .create _ => "1"
    | .update .. => "2"
    | .preview .. => "3"
    | .apply .. => "4"
    | .rulebookPreview .. => "5"
    | .rulebookPublish .. => "6"
    | .executionPolicy .. => "7"

def world : World := ⟨0, "p", 300, build, .ok ⟨"r", "b", "s"⟩⟩

def configuration : Json := .object [("rulebook", .object [("id", .str "k"), ("revision", .int 1)])]

def apply : Call := ⟨.apply "p" "p" 1, "o", "3"⟩

/-- A project is created and previewed, transaction by transaction. -/
def actions : List Action := [.call ⟨.create ⟨⟨"n", "b", "m", ["m"]⟩, "r"⟩, "o", "1"⟩ world, .advance 0 world,
    .call ⟨.preview "p" configuration, "o", "2"⟩ world, .advance 0 world, .advance 0 world, .advance 0 world]

def empty : Database := ⟨.empty, .empty, .empty, .empty, .empty, .empty, [], [], .empty⟩

def previewed : State := (registry library).run ⟨empty, []⟩ actions

def applied : State := previewed.step library (.call apply world)

theorem applied_facts : (previewed.transact library (.call apply world)).any (fun t => match t.2.2 with
      | .ok (.done _ _) => true
      | _ => false) ∧
    (previewed.db.commands.get? ("o", "3")).isNone ∧
    (previewed.db.projects.get? "p").map (·.revision) = some 1 ∧
    (applied.db.projects.get? "p").map (fun p => (p.revision, p.configuration.digest)) = some (2, some "d") ∧
    (applied.db.catalogs.get? "p").map (·.revision) = some 1 ∧
    (applied.db.versions.get? ("p", "k", 1)).map (·.rulebook_sha256) = some "s" := by
  decide +kernel

theorem empty_legacy : Legacy library empty := by
  constructor <;> simp [empty, CatalogsSound]

theorem previewed_reach : (registry library).Reach free previewed := ⟨_, ⟨empty_legacy, rfl⟩, .of_free_run⟩

theorem apply_accepts : ∃ result db, Accepts library previewed (.call apply world) apply world result db := by
  obtain ⟨hdone, hnew, -⟩ := applied_facts
  simp only [transact, Option.any_some] at hdone
  split at hdone
  case h_1 result db hask =>
    exact ⟨result, db, by simp only [transact, hask], Option.isNone_iff_eq_none.mp hnew⟩
  · cases hdone

end DecisionSample

open DecisionSample in
theorem reviewed_decisions_sample : ∃ project preview configuration,
    Decides library world previewed.db "o" "p" "p" project preview configuration ∧
    Installs library world previewed.db "p" "p" project preview configuration applied.db ∧
    Made library previewed "o" "p" preview := by
  obtain ⟨hsteps, -⟩ := reviewed_decisions library previewed_reach
  obtain ⟨result, db, haccepts⟩ := apply_accepts
  exact (hsteps (.call apply world)).2.1 apply world result db "p" "p" haccepts rfl

end Karajan.Projects
