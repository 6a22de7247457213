import Mathlib.Data.Option.Basic
import Karajan.Qualifying.Facts

/-!
# Facts rest on the newest qualification

A start is never taken back, runs its suite once and is recorded once. Facts are
read of the newest start alone, and of no other one when that start does not serve.
-/

namespace Karajan.Qualifying

open List Dict Check

variable {start : Start}

theorem nodup_snoc {l : List α} {x : α} (h : l.Nodup) (hx : x ∉ l) : (l ++ [x]).Nodup := by
  simpa using h.concat hx

-- What the starts and the records say

def RecordBinding.Of (binding : RecordBinding) (start : Start) : Prop :=
  binding = .start start.binding ∨
    ∃ runtime, start.binding.origin = .fixture runtime ∧ binding = .fixture start.binding.profile_binding runtime

/-- A commander's source names what the start was authenticated with. -/
def Origin.Sealed (bound : Binding) : Origin → Prop
  | .commander execution _ => execution.source.commander = some (bound, execution.authentication_source)
  | .go .. | .fixture _ => True

structure Start.Wrote (start : Start) (record : Record) : Prop where
  own : record.id = start.id
  binding : record.binding.Of start

structure Sound (s : State) : Prop where
  ids : (s.db.starts.map (·.id)).Nodup
  keys : (s.db.starts.map fun x => (x.call.principal, x.call.command_key)).Nodup
  once : (s.observed ++ s.begun.map (·.id)).Nodup
  begun : ∀ x ∈ s.begun, x ∈ s.db.starts
  ran : ∀ x ∈ s.ran, x.1 ∈ s.db.starts
  observed : ∀ id ∈ s.observed, ∃ x ∈ s.db.starts, x.id = id
  records : ∀ id record, s.db.records.get? id = some record → ∃ x ∈ s.db.starts, x.id = id ∧ x.Wrote record
  origins : ∀ x ∈ s.db.starts, x.binding.origin.Sealed x.binding.profile_binding

theorem startBinding_sealed
    (h : startBinding w e request = .ok binding) : binding.origin.Sealed binding.profile_binding := by
  cases request with
  | runtimeTools =>
    simp only [startBinding, startRuntimeTools, bind_ok, pure_ok] at h
    obtain ⟨_, _, _, _, _, _, _, _, _, _, _, _, _, _, rfl⟩ := h
    trivial
  | commanderPlanning =>
    simp only [startBinding, startCommanderPlanning, bind_ok, pure_ok] at h
    obtain ⟨_, _, _, _, _, _, _, _, _, _, rfl⟩ := h
    rfl
  | localFixture =>
    simp only [startBinding, startLocalFixture, bind_ok, pure_ok] at h
    obtain ⟨_, _, _, _, rfl⟩ := h
    trivial

theorem begin_ok (h : begin lib w db call = .ok (.inr start)) : (start.call.principal, start.call.command_key) ∉
        db.starts.map (fun x => (x.call.principal, x.call.command_key)) ∧
      start.id ∉ db.starts.map (·.id) ∧ start.binding.origin.Sealed start.binding.profile_binding := by
  simp only [begin, bind_ok] at h
  obtain ⟨_, _, _, _, request, _, _, _, h⟩ := h
  split at h
  · simp only [bind_ok, pure_ok, reduceCtorEq, and_false, exists_false] at h
  case h_2 hnone =>
    simp only [bind_ok, ensure_ok, pure_ok, Sum.inr.injEq] at h
    obtain ⟨binding, hbinding, _, hfresh, rfl⟩ := h
    refine ⟨?_, ?_, startBinding_sealed hbinding⟩
    · simpa using hnone
    · simpa using hfresh

theorem Start.Wrote.unless (h : start.Wrote record) (b : Bool) (code : String) : start.Wrote (record.unless b code) := by
  cases b with
  | true => exact h
  | false => exact ⟨h.own, h.binding⟩

theorem Start.Wrote.evidenced (h : start.Wrote record) : start.Wrote (record.evidenced lib execution) := by
  unfold Record.evidenced
  split
  · exact h.unless _ _
  · split
    · exact h.unless _ _
    · exact h

theorem Start.Wrote.withFacts (h : start.Wrote record) :
    start.Wrote (record.withFacts execution capabilities) := by
  unfold Record.withFacts
  split
  · split
    · exact ⟨h.own, h.binding⟩
    · exact h
  · exact h

theorem complete_ok (h : complete lib w db start observation = .ok record) :
    start.Wrote record ∧ db.records.get? start.id = none := by
  simp only [complete, bind_ok, ensure_ok, Option.isNone_iff_eq_none] at h
  obtain ⟨now, _, _, _, _, hnone, h⟩ := h
  refine ⟨?_, hnone⟩
  split at h
  · obtain rfl := pure_ok.mp h
    exact .evidenced (.unless ⟨rfl, .inl rfl⟩ _ _)
  · obtain rfl := pure_ok.mp h
    exact .withFacts (.unless ⟨rfl, .inl rfl⟩ _ _)
  case h_3 runtime horigin =>
    simp only [recordLocalFixture, bind_ok, pure_ok] at h
    obtain ⟨_, _, rfl⟩ := h
    exact ⟨rfl, .inr ⟨runtime, horigin, rfl⟩⟩

theorem revoke_ok (h : revoke lib w db revocation = .ok db') :
    db'.starts = db.starts ∧ db'.records = db.records := by
  simp only [revoke, bind_ok] at h
  obtain ⟨_, _, _, _, _, _, _, _, _, _, _, _, h⟩ := h
  rcases ite_eq_iff.mp h with ⟨-, h⟩ | ⟨-, h⟩
  · obtain rfl := pure_ok.mp h
    exact ⟨rfl, rfl⟩
  · obtain rfl := pure_ok.mp h
    exact ⟨rfl, rfl⟩

-- Every step

structure Kept (s t : State) : Prop where
  starts : s.db.starts <+: t.db.starts
  records : ∀ id record, s.db.records.get? id = some record → t.db.records.get? id = some record

open State (step)

theorem step_kept (s : State) (a : Action) : Kept s (s.step lib a) := by
  cases a with
  | begin call w =>
    simp only [step]
    split
    · exact ⟨prefix_append _ _, fun _ _ h => h⟩
    · exact ⟨prefix_rfl, fun _ _ h => h⟩
    · exact ⟨prefix_rfl, fun _ _ h => h⟩
  | observe index observation =>
    simp only [step]
    split <;> exact ⟨prefix_rfl, fun _ _ h => h⟩
  | complete index w =>
    simp only [step]
    split
    · split
      case h_1 start _ _ record hrecord =>
        exact ⟨prefix_rfl, fun _ _ hkept => get?_put_new (complete_ok hrecord).2 hkept⟩
      · exact ⟨prefix_rfl, fun _ _ h => h⟩
    · exact ⟨prefix_rfl, fun _ _ h => h⟩
  | revoke revocation w =>
    simp only [step]
    split
    case h_1 db hdb =>
      obtain ⟨hstarts, hrecords⟩ := revoke_ok hdb
      refine ⟨?_, fun id record h => ?_⟩
      · simp only [hstarts, prefix_rfl]
      · simpa only [hrecords] using h
    · exact ⟨prefix_rfl, fun _ _ h => h⟩
  | change environment => exact ⟨prefix_rfl, fun _ _ h => h⟩

section
variable (h : Sound s)
include h

theorem Sound.of_starts (hstarts : t.db.starts = s.db.starts) (hrecords : t.db.records = s.db.records)
    (hbegun : t.begun = s.begun) (hran : t.ran = s.ran) (hobserved : t.observed = s.observed) : Sound t where
  ids := hstarts ▸ h.ids
  keys := hstarts ▸ h.keys
  once := by
    rw [hobserved, hbegun]
    exact h.once
  begun := by
    rw [hbegun, hstarts]
    exact h.begun
  ran := by
    rw [hran, hstarts]
    exact h.ran
  observed := by
    rw [hobserved, hstarts]
    exact h.observed
  records := by
    rw [hrecords, hstarts]
    exact h.records
  origins := by
    rw [hstarts]
    exact h.origins

theorem Sound.began (hbegin : begin lib w s.db call = .ok (.inr start)) :
    Sound { s with db := { s.db with starts := s.db.starts ++ [start] }, begun := s.begun ++ [start] } := by
  obtain ⟨hkey, hid, hsealed⟩ := begin_ok hbegin
  have hgrown : ∀ x, x ∈ s.db.starts → x ∈ s.db.starts ++ [start] := fun x hx => mem_append_left _ hx
  have hlast : ∀ p : Start → Prop, (∀ x ∈ s.db.starts, p x) → p start → ∀ x ∈ s.db.starts ++ [start], p x := by
    rintro p hall hp x hx
    rcases mem_append.mp hx with hx | hx
    · exact hall x hx
    · obtain rfl := mem_singleton.mp hx
      exact hp
  constructor
  case ids =>
    simp only [map_append, map_cons, map_nil]
    exact nodup_snoc h.ids hid
  case keys =>
    simp only [map_append, map_cons, map_nil]
    exact nodup_snoc h.keys hkey
  case once =>
    simp only [map_append, map_cons, map_nil, ← append_assoc]
    refine nodup_snoc h.once fun hin => hid ?_
    rcases mem_append.mp hin with hin | hin
    · obtain ⟨x, hx, heq⟩ := h.observed _ hin
      exact mem_map.mpr ⟨x, hx, heq⟩
    · obtain ⟨x, hx, heq⟩ := mem_map.mp hin
      exact mem_map.mpr ⟨x, h.begun x hx, heq⟩
  case begun =>
    intro x hx
    rcases mem_append.mp hx with hx | hx
    · exact hgrown x (h.begun x hx)
    · exact mem_append_right _ hx
  case ran => exact fun x hx => hgrown _ (h.ran x hx)
  case observed =>
    intro id hid
    obtain ⟨x, hx, heq⟩ := h.observed id hid
    exact ⟨x, hgrown x hx, heq⟩
  case records =>
    intro id record hrecord
    obtain ⟨x, hx, hwrote⟩ := h.records id record hrecord
    exact ⟨x, hgrown x hx, hwrote⟩
  case origins => exact hlast (fun x => x.binding.origin.Sealed x.binding.profile_binding) h.origins hsealed

theorem Sound.observe (hget : s.begun[index]? = some start) : Sound { s with
      begun := s.begun.eraseIdx index
      ran := s.ran ++ [(start, observation)]
      observed := start.id :: s.observed } :=
  { h with
    once := by
      obtain ⟨hlt, rfl⟩ := List.getElem?_eq_some_iff.mp hget
      have hperm := (List.getElem_cons_eraseIdx_perm hlt).map (·.id)
      refine ((perm_middle.symm.trans ?_).nodup_iff).mpr h.once
      exact hperm.append_left s.observed
    begun := fun x hx => h.begun x (mem_of_mem_eraseIdx hx)
    ran := by
      intro x hx
      rcases mem_append.mp hx with hx | hx
      · exact h.ran x hx
      · obtain rfl := mem_singleton.mp hx
        exact h.begun _ (mem_of_getElem? hget)
    observed := by
      rintro id hid
      rcases mem_cons.mp hid with rfl | hid
      · exact ⟨start, h.begun _ (mem_of_getElem? hget), rfl⟩
      · exact h.observed id hid }

theorem Sound.ran_erased (index : Nat) : Sound { s with ran := s.ran.eraseIdx index } :=
  { h with
    ran := fun x hx => h.ran x (mem_of_mem_eraseIdx hx) }

theorem Sound.complete (hstart : start ∈ s.db.starts)
    (hrecord : complete lib w s.db start observation = .ok record) :
    Sound { s with db := { s.db with records := s.db.records.put start.id record } } :=
  { h with
    records := by
      intro id found hfound
      by_cases hid : start.id = id
      · subst hid
        obtain rfl : record = found := by simpa using hfound
        exact ⟨start, hstart, rfl, (complete_ok hrecord).1⟩
      · exact h.records id found (by simpa [get?_put_of_ne hid] using hfound) }

theorem step_sound (a : Action) : Sound (s.step lib a) := by
  cases a with
  | begin call w =>
    simp only [step]
    split
    case h_1 hbegin => exact h.began hbegin
    · exact h
    · exact h
  | observe index observation =>
    simp only [step]
    split
    case h_1 hget => exact h.observe hget
    · exact h
  | complete index w =>
    simp only [step]
    split
    case h_1 start observation hget =>
      split
      case h_1 record hrecord =>
        exact (h.ran_erased index).complete (h.ran _ (mem_of_getElem? hget)) hrecord
      · exact h.ran_erased index
    · exact h
  | revoke revocation w =>
    simp only [step]
    split
    case h_1 db hdb =>
      obtain ⟨hstarts, hrecords⟩ := revoke_ok hdb
      exact h.of_starts hstarts hrecords rfl rfl rfl
    · exact h
  | change environment => exact h.of_starts rfl rfl rfl rfl rfl

end

theorem sound (h : (qualifications lib).Reach System.free s) : Sound s := by
  refine h.invariant (fun s hinit => ?_) fun s a hs _ => step_sound hs a
  obtain ⟨hstarts, hrecords, -, hbegun, hran, hobserved⟩ := hinit
  exact ⟨by simp [hstarts], by simp [hstarts], by simp [hobserved, hbegun], by simp [hbegun], by simp [hran],
    by simp [hobserved], by simp [hrecords], by simp [hstarts]⟩

theorem path_kept (h : (qualifications lib).Path System.free s t) : Kept s t := by
  induction h with
  | refl => exact ⟨prefix_rfl, fun _ _ h => h⟩
  | @step t a _ _ ih =>
    have hstep : Kept t (t.step lib a) := step_kept t a
    exact ⟨ih.starts.trans hstep.starts, fun id record h => hstep.records id record (ih.records id record h)⟩

-- What facts rest on

/-- The newest start of the project, the scope, the suite and the profile. -/
def Newest (starts : List Start) (project_id : String) (ref : Ref) (start : Start) : Prop :=
  ∃ before after, starts = before ++ start :: after ∧ start.isOf project_id ref = true ∧
    ∀ x ∈ after, x.isOf project_id ref = true → x.binding.qualification_scope = start.binding.qualification_scope →
      x.binding.suite_ref ≠ start.binding.suite_ref

/-- The start is the newest one, its record passed and stands, and it is of the profile as it is. -/
structure Qualified (w : World) (db : Database) (project_id : String) (frozen : Registration) (start : Start)
    (record : Record) : Prop where
  newest : Newest db.starts project_id frozen.ref start
  recorded : db.records.get? start.id = some record
  passed : record.status = "passed"
  timely : ∃ now, w.now = some now ∧ record.observed_at ≤ now ∧ now < record.valid_until
  standing : db.revocations.get? start.id = none
  profile : db.environment.binding project_id frozen.ref = .ok start.binding.profile_binding
  registered : start.binding.profile_binding.registration = frozen
  enabled : frozen.enabled = true

/-- What the start was made from is what is there: the runtime, or the suite and the credential. -/
def Origin.Current (w : World) (e : Environment) (project_id : String) (frozen : Registration)
    (fixture_root : Option String) (bound : Binding) : Origin → Prop
  | .fixture runtime => ∃ path root, fixture_root = some path ∧ w.safe_root path = .ok root ∧ runtime = w.runtime root
  | .go execution controller_sha256 => deployed w frozen = some execution.source ∧
      controller_sha256 = w.controller_sha256 ∧
      currentLocked w e project_id bound.profile.auth_ref = .ok execution.authentication_source
  | .commander .. => False

theorem latest_eq_some : latest starts asked = some start ↔
      asked start = true ∧ ∃ before after, starts = before ++ start :: after ∧ ∀ x ∈ after, asked x = false := by
  rw [latest, find?_eq_some_iff_append]
  refine and_congr_right fun _ => ⟨?_, ?_⟩
  · rintro ⟨after, before, heq, hall⟩
    refine ⟨before.reverse, after.reverse, ?_, fun x hx => ?_⟩
    · rw [← reverse_reverse starts, heq]
      simp
    · simpa using hall x (mem_reverse.mp hx)
  · rintro ⟨before, after, rfl, hall⟩
    refine ⟨after.reverse, before.reverse, by simp, fun x hx => ?_⟩
    simpa using hall x (mem_reverse.mp hx)

theorem latest_newest (h : latest starts asked = some start) (hof : start.isOf project_id ref = true)
    (hasked : ∀ x, x.isOf project_id ref = true →
      x.binding.qualification_scope = start.binding.qualification_scope →
      x.binding.suite_ref = start.binding.suite_ref → asked x = true) : Newest starts project_id ref start := by
  obtain ⟨-, before, after, heq, hall⟩ := latest_eq_some.mp h
  refine ⟨before, after, heq, hof, fun x hx hisOf hscope hsuite => ?_⟩
  have hnot := hall x hx
  simp [hasked x hisOf hscope hsuite] at hnot

theorem Sound.wrote (h : Sound s) (hstart : start ∈ s.db.starts) (hrecord : s.db.records.get? start.id = some record) :
    start.Wrote record := by
  obtain ⟨x, hx, hid, hwrote⟩ := h.records _ _ hrecord
  obtain rfl : x = start := inj_on_of_nodup_map h.ids hx hstart hid
  exact hwrote

theorem RecordBinding.Of.profile_binding {binding : RecordBinding} (h : binding.Of start) :
    binding.profile_binding = start.binding.profile_binding := by
  rcases h with rfl | ⟨runtime, -, rfl⟩ <;> rfl

theorem Newest.mem (h : Newest starts project_id ref start) : start ∈ starts := by
  obtain ⟨before, after, rfl, -⟩ := h
  simp

theorem factsOf_observation (h : (pure (factsOf record profile producer roles tools tokens destination
    status capabilities) : Except String Facts) = .ok f) : f.observation = record := by
  obtain rfl := pure_ok.mp h
  rfl

theorem goFacts_ok (h : goFacts lib w db project_id profile record binding source scope = .ok f) :
    f.observation = record ∧ ∃ execution, binding.origin = .go execution w.controller_sha256 ∧
      execution.source = source ∧
      currentLocked w db.environment project_id profile.auth_ref = .ok execution.authentication_source := by
  unfold goFacts at h
  split at h
  case h_1 | h_2 => cases h
  case h_3 execution sha horigin =>
    simp only [bind_ok, ensure_ok, Bool.and_eq_true, decide_eq_true_eq] at h
    obtain ⟨_, ⟨⟨-, rfl⟩, hsource⟩, authentication, hauthentication, _, rfl, h⟩ := h
    refine ⟨?_, execution, horigin, hsource, hauthentication⟩
    split at h
    · simp only [projectedFacts, bind_ok] at h
      obtain ⟨_, _, h⟩ := h
      split at h <;> exact factsOf_observation h
    · split at h
      · simp only [readonlyFacts, bind_ok] at h
        obtain ⟨_, _, h⟩ := h
        split at h <;> exact factsOf_observation h
      · simp only [bind_ok] at h
        obtain ⟨_, _, h⟩ := h
        exact factsOf_observation h

theorem localFacts_ok (h : localFacts w profile record fixture_root = .ok f) :
    f.observation = record ∧ ∃ path root bound, fixture_root = some path ∧ w.safe_root path = .ok root ∧
      record.binding = .fixture bound (w.runtime root) := by
  simp only [localFacts, bind_ok, need_ok] at h
  obtain ⟨path, rfl, root, hroot, h⟩ := h
  split at h
  case h_1 bound runtime hbinding =>
    simp only [bind_ok, ensure_ok, decide_eq_true_eq] at h
    obtain ⟨_, rfl, h⟩ := h
    exact ⟨factsOf_observation h, path, root, bound, rfl, hroot, hbinding⟩
  · cases h

theorem wanted_ok (h : wanted w frozen scope = .ok (source, wanted_scope, suite)) :
    (scope = "runtime_tools" ∨ wanted_scope = scope) ∧ ∀ found, source = some found → deployed w frozen = some found := by
  unfold wanted at h
  split at h
  case isTrue hscope =>
    obtain ⟨rfl, rfl, rfl⟩ : _ ∧ _ ∧ _ := by simpa [pure_ok] using h
    exact ⟨.inr hscope.symm, by simp⟩
  · simp only [bind_ok, need_ok, ensure_ok, pair_ok] at h
    obtain ⟨_, _, found, hfound, source_scope, _, _, _, rfl, rfl, rfl⟩ := h
    refine ⟨?_, fun found' heq => by rw [hfound, heq]⟩
    by_cases hscope : scope = "runtime_tools"
    · exact .inl hscope
    · exact .inr (by simp [hscope])

/-- The record is of a start that qualifies, in the scope that is asked for, and is of what is there. -/
def Authorises (w : World) (db : Database) (project_id : String) (frozen : Registration) (scope : String)
    (fixture_root : Option String) (record : Record) : Prop :=
  ∃ start, Qualified w db project_id frozen start record ∧
    (scope = "runtime_tools" ∨ start.binding.qualification_scope = scope) ∧
    start.binding.origin.Current w db.environment project_id frozen fixture_root start.binding.profile_binding

theorem facts_authorised (hs : Sound s) {fixture_root : Option String} {f : Facts}
    (h : facts lib w s.db project_id frozen scope fixture_root = .ok f) :
    Authorises w s.db project_id frozen scope fixture_root f.observation := by
  simp only [facts, bind_ok] at h
  obtain ⟨⟨source, wanted_scope, wanted_suite⟩, hwanted, h⟩ := h
  simp only [ensure_ok, need_ok, Database.record, Bool.and_eq_true, decide_eq_true_eq,
    Option.isNone_iff_eq_none] at h
  obtain ⟨_, -, current, hcurrent, _, hregistration, _, henabled, start, hlatest, record, hrecord, _, hrevoked, _,
    hbound, _, hpassed, now, hnow, _, htimely, h⟩ := h
  obtain ⟨hmet, -⟩ := latest_eq_some.mp hlatest
  simp only [Bool.and_eq_true, decide_eq_true_eq] at hmet
  obtain ⟨⟨hof, hscope⟩, rfl⟩ := hmet
  have hnewest : Newest s.db.starts project_id frozen.ref start :=
    latest_newest hlatest hof fun x hx hxscope hxsuite => by simp [hx, hxscope, hxsuite, hscope]
  obtain ⟨hasked, hdeployed⟩ := wanted_ok hwanted
  have hwrote := hs.wrote hnewest.mem hrecord
  rw [hwrote.own] at hrevoked
  obtain rfl : start.binding.profile_binding = current := hwrote.binding.profile_binding.symm.trans hbound
  have hqualified : Qualified w s.db project_id frozen start record :=
    ⟨hnewest, hrecord, hpassed, ⟨now, hnow, htimely⟩, hrevoked, hcurrent, hregistration, henabled⟩
  rw [← hscope] at hasked
  split at h
  case h_1 source hsource =>
    obtain ⟨rfl, execution, horigin, rfl, hauthentication⟩ := goFacts_ok h
    refine ⟨start, hqualified, hasked, ?_⟩
    rw [horigin]
    exact ⟨hdeployed _ rfl, rfl, hauthentication⟩
  · obtain ⟨rfl, path, root, bound, hpath, hroot, hbinding⟩ := localFacts_ok h
    refine ⟨start, hqualified, hasked, ?_⟩
    rcases hwrote.binding with hstart | ⟨runtime, horigin, hfixture⟩
    · simp [hbinding] at hstart
    · rw [horigin]
      rw [hbinding] at hfixture
      cases hfixture
      exact ⟨path, root, hpath, hroot, rfl⟩

/-- The record is of a commander's start that qualifies and was made from the source. Where that is
the source that is deployed, the start was authenticated as one is now. -/
def CommanderAuthorises (w : World) (db : Database) (project_id : String) (frozen : Registration) (scope : String)
    (source : Source) (record : Record) : Prop :=
  ∃ start execution sha, Qualified w db project_id frozen start record ∧
    start.binding.qualification_scope = scope ∧ start.binding.origin = .commander execution sha ∧
    execution.source = source ∧ ∀ bound, commanderSource w db.environment project_id bound = .ok source →
      currentLocked w db.environment project_id bound.profile.auth_ref = .ok execution.authentication_source

theorem commanderFacts_authorised (hs : Sound s)
    (h : commanderFactsLocked w s.db project_id frozen scope source = some (record, found)) :
    CommanderAuthorises w s.db project_id frozen scope source record := by
  simp only [commanderFactsLocked, Option.bind_eq_bind, Option.bind_eq_some_iff, Option.guard_eq_some'] at h
  obtain ⟨current, hcurrent, _, ⟨hregistration, henabled⟩, start, hlatest, _, hbound, h⟩ := h
  split at h
  case h_2 => cases h
  case h_1 execution sha horigin =>
    simp only [Option.bind_eq_some_iff, Option.guard_eq_some'] at h
    obtain ⟨_, rfl, record', hrecord, found', hfound, now, hnow, later, hlater, _,
      ⟨hbinding, hrecorded, hpassed, hprovenance, hrevoked, hobserved, hvalid, huntil⟩, _, -, heq⟩ := h
    obtain ⟨rfl, rfl⟩ : record' = record ∧ found' = found := by simpa using heq
    obtain ⟨hmet, -⟩ := latest_eq_some.mp hlatest
    simp only [Bool.and_eq_true, decide_eq_true_eq] at hmet
    obtain ⟨hof, hscope⟩ := hmet
    have hnewest : Newest s.db.starts project_id frozen.ref start :=
      latest_newest hlatest hof fun x hx hxscope _ => by simp [hx, hxscope, hscope]
    have hwrote := hs.wrote hnewest.mem hrecord
    rw [hwrote.own, Option.isNone_iff_eq_none] at hrevoked
    have hsealed := hs.origins start hnewest.mem
    rw [horigin] at hsealed
    refine ⟨start, execution, sha, ⟨hnewest, hrecord, hpassed, ⟨now, hnow, hobserved, hvalid⟩, hrevoked, ?_, ?_, henabled⟩,
      hscope, horigin, rfl, fun bound hsource => ?_⟩
    · rw [hbound]
      cases hfrozen : s.db.environment.binding project_id frozen.ref with
      | error => simp [hfrozen, Except.toOption] at hcurrent
      | ok => simpa [hfrozen, Except.toOption] using hcurrent
    · rw [hbound, hregistration]
    · simp only [commanderSource, bind_ok, pure_ok] at hsource
      obtain ⟨suite, -, authentication, hauthentication, hsource⟩ := hsource
      have hsame : some (bound, authentication) =
          some (start.binding.profile_binding, execution.authentication_source) := by
        rw [← hsealed, ← hsource]
        rfl
      obtain ⟨-, rfl⟩ := Prod.mk.inj (Option.some.inj hsame)
      exact hauthentication

structure OncePerKey (s : State) : Prop where
  one : ∀ x ∈ s.db.starts, ∀ y ∈ s.db.starts, x.call.principal = y.call.principal →
    x.call.command_key = y.call.command_key → x = y
  observed : s.observed.Nodup
  started : ∀ id ∈ s.observed, ∃ x ∈ s.db.starts, x.id = id
  records : ∀ id record, s.db.records.get? id = some record → record.id = id ∧ ∃ x ∈ s.db.starts, x.id = id

theorem Sound.oncePerKey (h : Sound s) : OncePerKey s where
  one := fun x hx y hy hprincipal hkey =>
    inj_on_of_nodup_map h.keys hx hy (Prod.ext hprincipal hkey)
  observed := (nodup_append.mp h.once).1
  started := h.observed
  records := by
    intro id record hrecord
    obtain ⟨x, hx, rfl, hwrote⟩ := h.records id record hrecord
    exact ⟨hwrote.own, x, hx, rfl⟩

/-- Every command key stands for one start, whose suite runs once and whose record stays. Whoever
reads facts reads them of the newest start, which passed, stands, and is of what is there now. -/
theorem qualifications_authorised (h : (qualifications lib).Reach System.free s) :
    OncePerKey s ∧ (∀ t, (qualifications lib).Path System.free s t → Kept s t) ∧
      (∀ w project_id frozen scope fixture_root f, facts lib w s.db project_id frozen scope fixture_root = .ok f →
        Authorises w s.db project_id frozen scope fixture_root f.observation) ∧
      ∀ w project_id frozen scope source record found,
        commanderFactsLocked w s.db project_id frozen scope source = some (record, found) →
          CommanderAuthorises w s.db project_id frozen scope source record := by
  have hs := sound h
  refine ⟨hs.oncePerKey, fun t hp => path_kept hp, ?_, ?_⟩
  · intro w project_id frozen scope fixture_root f hfacts
    exact facts_authorised hs hfacts
  · intro w project_id frozen scope source record found hfound
    exact commanderFacts_authorised hs hfound

namespace Sample

def library : Library where
  projects :=
    { isspace := (· = ' '), isprintable := fun _ => true, digest := fun _ => "", policy_digest := fun _ => "",
      identity := fun _ => "" }
  projected_observation_passed := fun _ _ => true
  readonly_observation_passed := fun _ _ => true
  commander_capabilities := fun _ => none

def profile : Profile :=
  ⟨⟨"p", 1⟩, "k", "a", "c", "subscription_only", "fixture-runtime", "1", "fixture-model", "none", none, "\x7b\x7d",
    ["fixture-tools"], ""⟩

def registration : Registration := ⟨⟨"p", 1⟩, some profile, true, ""⟩

def environment : Environment where
  owners := .ofList [("j", "o")]
  catalogs := .ofList [("j", ⟨some ⟨[registration], [⟨"a", "k", ""⟩], [⟨"c", "a", "subscription_only", true, ""⟩]⟩,
    [⟨"p", 1⟩]⟩)]
  repositories := .ofList [("j", ⟨"/f/r", "m", "b"⟩)]
  generations := .empty
  current := .empty
  revoked := []

def world (now : Rat) : World :=
  ⟨some now, some now, "h", none, none, none, fun _ _ => none, fun _ => true, .ok, fun _ => true, id, fun _ _ => true,
    fun _ => true, "q", []⟩

def call : Call := ⟨"o", "x", .localFixture "j" ⟨"p", 1⟩ "/f" 60⟩

def initial : State := ⟨⟨environment, [], .empty, .empty⟩, [], [], []⟩

def state : State :=
  (qualifications library).run initial
    [.begin call (world 0), .begin call (world 0), .observe 0 ⟨"", [], [], [true], ""⟩, .complete 0 (world 5)]

end Sample

open Sample (state library world registration)

theorem qualifications_authorised_sample :
    OncePerKey state ∧ ∃ f, facts library (world 9) state.db "j" registration
      "local_fixture" (some "/f") = .ok f ∧
      Authorises (world 9) state.db "j" registration "local_fixture" (some "/f") f.observation := by
  have hreach : (qualifications library).Reach System.free state :=
    ⟨Sample.initial, ⟨rfl, rfl, rfl, rfl, rfl, rfl⟩, .of_free_run⟩
  obtain ⟨honce, -, hfacts, -⟩ := qualifications_authorised hreach
  obtain ⟨f, hf⟩ := ok_of_isOk (x := facts library (world 9) state.db "j" registration
    "local_fixture" (some "/f")) (by decide +kernel)
  exact ⟨honce, f, hf, hfacts _ _ _ _ _ f hf⟩

end Karajan.Qualifying
