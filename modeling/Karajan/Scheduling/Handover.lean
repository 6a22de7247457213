import Karajan.Scheduling.Occupancy
import Karajan.Scheduling.Scopes

/-!
# Handing a task out

A fresh claim found its task ready: nothing held it back, its dependencies were
complete and its write zone free. What a claim and a report do to the ledger of
claims is listed once, for the invariants that are about the ledger alone.
-/

namespace Karajan.Scheduling

open Dict Check
variable {P : Platform} {store later : Store} {db db' : Db} {id : String}

-- Stored tasks

theorem TaskRewritten.absent (h : TaskRewritten db db' key task_id old new)
    (hnone : (db.tasks key').get? id = none) : (db'.tasks key').get? id = none := by
  by_cases hkey : key' = key
  · subst hkey
    by_cases hid : id = task_id
    · subst hid
      obtain ⟨row, hrow, -⟩ := h.found
      rw [hnone] at hrow; cases hrow
    · rw [h.others id hid, hnone]
  · rw [h.elsewhere key' hkey, hnone]

theorem serve_tasks_back (P : Platform) (request : Request)
    (hrow' : ((store.serve P request).db.tasks key).get? id = some row') :
    (∃ row, (store.db.tasks key).get? id = some row ∧
      TaskMove P request key id row.record row'.record) ∨
    (store.db.tasks key).get? id = none ∧ Unclaimed id row'.record := by
  cases hrow : (store.db.tasks key).get? id with
  | some row =>
    obtain ⟨row'', hrow'', hmove⟩ := serve_moves P request hrow
    rw [hrow'] at hrow''; cases hrow''
    exact .inl ⟨row, rfl, hmove⟩
  | none =>
    refine .inr ⟨rfl, ?_⟩
    have heffect := (serve_effect (P := P) store request).tasks
    generalize (store.serve P request).db = db' at hrow' heffect
    cases heffect with
    | kept kept => rw [kept.tasks, hrow] at hrow'; cases hrow'
    | @planned _ _ _ _ _ _ key' planned =>
      by_cases hkey : key = key'
      · subst hkey; exact planned.added id row' hrow' hrow
      · rw [planned.elsewhere key hkey, hrow] at hrow'; cases hrow'
    | claimed claimed => rw [claimed.rewritten.absent hrow] at hrow'; cases hrow'
    | reported reported => rw [reported.rewritten.absent hrow] at hrow'; cases hrow'

theorem stored_tasks {I : String → Task → Prop} (hnew : ∀ id task, Unclaimed id task → I id task)
    (hmove : ∀ request key id old new, TaskMove P request key id old new → I id old → I id new)
    (h : (schedulingStore P).Reach System.free store) :
    ∀ key id row, (store.db.tasks key).get? id = some row → I id row.record := by
  refine h.invariant (I := fun store => ∀ key id row, (store.db.tasks key).get? id = some row →
    I id row.record) ?_ ?_
  · rintro _ ⟨projects, rfl⟩ key id row hrow
    cases hrow
  · intro store request hi _ key id row' hrow'
    rcases serve_tasks_back P request hrow' with ⟨row, hrow, hm⟩ | ⟨-, hu⟩
    · exact hmove request key id _ _ hm (hi key id row hrow)
    · exact hnew id _ hu

theorem tasks_named (h : (schedulingStore P).Reach System.free store)
    (hrow : (store.db.tasks key).get? id = some row) : row.record.task_id = id := by
  refine stored_tasks (I := fun id task => task.task_id = id) (fun _ _ hu => hu.task_id) ?_ h key id
    row hrow
  intro request key id old new hm hi
  cases hm with
  | same | claimed | reported => exact hi
  | planned planned => exact planned.task_id.trans hi

-- What holds a task back

section
variable {blocked : Dict String WaitingReason}

theorem held_put (h : blocked.contains id = true) : (blocked.put name reason).contains id = true := by
  rw [contains_iff] at h ⊢
  exact Dict.mem_keys_put.mpr (.inr h)

theorem held_putNew (h : blocked.contains id = true) : (blocked.putNew name reason).contains id = true := by
  unfold putNew
  split
  · exact h
  · exact held_put h

variable {expansions : Dict String Expansion} {task : Task}

theorem held_join (reference : String) (h : blocked.contains id = true) :
    (match (expansions.get? reference).bind (joinReason tasks resolved task) with
      | some reason => blocked.put task.task_id reason
      | none => blocked).contains id = true := by
  split
  · exact held_put h
  · exact h

theorem held_joins (names : List String) (h : blocked.contains id = true) : (names.foldl (fun blocked reference =>
      match (expansions.get? reference).bind (joinReason tasks resolved task) with
      | some reason => blocked.put task.task_id reason
      | none => blocked) blocked).contains id = true := by
  induction names generalizing blocked with
  | nil => exact h
  | cons reference names ih => exact ih (held_join reference h)

end

-- What a fresh claim found

theorem dependencyReason_none (h : dependencyReason tasks names = none) :
    ∀ name ∈ names, ∃ task, tasks.get? name = some task ∧ task.state = .completed := by
  induction names with
  | nil => simp
  | cons name rest ih =>
    simp only [dependencyReason] at h
    split at h
    · cases h
    case h_2 task htask =>
      split at h
      case h_1 hstate =>
        rintro other (_ | ⟨_, hother⟩)
        · exact ⟨task, htask, hstate⟩
        · exact ih h other hother
      all_goals cases h

theorem zoneHolder_none (h : zoneHolder P ledger zone exclude = none) :
    ∀ record ∈ ledger, record.released = false → record.task_id ≠ exclude →
      zonesOverlap P record.write_zone zone = false := by
  intro record hm hu hne
  rw [zoneHolder, Option.map_eq_none_iff, List.find?_eq_none] at h
  simpa [hu, hne] using h record hm

structure Ready (P : Platform) (ledger : List Consumption) (expansions : Dict String Expansion)
    (tasks : Dict String Task) (task_id : String) (document : Task) : Prop where
  joined : (joinBlocked expansions tasks (resolvedVersions ledger)).get? task_id = none
  completed : ∀ name ∈ document.depends_on, ∃ task, tasks.get? name = some task ∧
    task.state = .completed
  zone_free : ∀ record ∈ ledger, record.released = false → record.task_id ≠ document.task_id →
    zonesOverlap P record.write_zone document.write_zone = false

theorem requireReady_ok (h : requireReady P tables ledger tasks task_id document = .ok u) :
    ∃ expansions, expansionsOf P tables = .ok expansions ∧
      Ready P ledger expansions tasks task_id document := by
  simp only [requireReady, bind_ok] at h
  obtain ⟨_, -, expansions, hexpansions, h⟩ := h
  refine ⟨expansions, hexpansions, ?_⟩
  split at h
  · cases h
  case h_2 hjoined =>
    split at h
    · cases h
    case h_2 hreason =>
      simp only [waitingReason] at hreason
      split at hreason
      · cases hreason
      · split at hreason
        · cases hreason
        case h_2 hdependency =>
          split at hreason
          · cases hreason
          case isFalse hzone =>
            exact ⟨hjoined, dependencyReason_none hdependency, zoneHolder_none (by simpa using hzone)⟩

theorem Claimed.found
    (h : Claimed P db key payload command_key clock claim_key task_id document grant admission) :
    ∃ tasks expansions, tasksOf P (db.runs key) = .ok tasks ∧ tasks.get? task_id = some document ∧
      expansionsOf P (db.runs key) = .ok expansions ∧
      Ready P (ledgerOf db key) expansions tasks task_id document := by
  obtain ⟨tasks, htasks, hdocument, hready⟩ := h.unchanged
  obtain ⟨expansions, hexpansions, hr⟩ := requireReady_ok hready
  exact ⟨tasks, expansions, htasks, hdocument, hexpansions, hr⟩

theorem Claimed.named (hreach : (schedulingStore P).Reach System.free store)
    (h : Claimed P store.db key payload command_key clock claim_key task_id document grant admission) :
    document.task_id = task_id := by
  obtain ⟨tasks, _, htasks, hdocument, -⟩ := h.found
  obtain ⟨row, hrow, rfl⟩ := found_of_tasksOf ⟨tasks, htasks, hdocument⟩
  exact tasks_named hreach hrow

-- The ledger

inductive LedgerMove (P : Platform) (store : Store) : Request → Db → Prop
  | kept {db' : Db} (same : db'.budget_consumption = store.db.budget_consumption) :
      LedgerMove P store request db'
  | claimed {db' : Db} {key : RunKey} {document : Task} {grant : Grant} {admission : Admitted}
      (claimed : Claimed P store.db key payload command_key clock claim_key task_id document grant
        admission)
      (put : db'.budget_consumption = store.db.budget_consumption.put (claimId P key claim_key)
        (consumptionRecord P key (claimId P key claim_key) task_id grant document (clock 1))) :
      LedgerMove P store (.claim key payload principal command_key clock) db'
  | reported {db' : Db} {key : RunKey} {document : Task} {report : ExecutionReport}
      (reporting : Reporting P store.db key task_id payload principal trusted document claim_id report)
      (after : db'.budget_consumption =
        reportedLedger P store.db document claim_id report principal trusted now) :
      LedgerMove P store (.reportExecution key task_id payload principal trusted now) db'

theorem Effect.ledger (h : Effect P store request db') : LedgerMove P store request db' := by
  cases h with
  | claimed _ _ _ _ _ _ claimed => exact .claimed claimed rfl
  | reported _ _ _ reporting => exact .reported reporting rfl
  | _ => exact .kept rfl

theorem mem_ledgerOf_reported
    (hl : db'.budget_consumption = reportedLedger P db document claim_id report principal trusted now)
    (h : record ∈ ledgerOf db' key) (hu : record.released = false) : record ∈ ledgerOf db key := by
  have hheld : record ∈ unreleased db' key record.task_id := by
    simpa [unreleased, hu] using h
  have hbefore := (mem_unreleased_reported hl hheld).1
  simp only [unreleased, List.mem_filter] at hbefore
  exact hbefore.1

theorem ledgerOf_put (hl : db'.budget_consumption = db.budget_consumption.put claim_id new)
    (hfresh : db.budget_consumption.get? claim_id = none)
    (hrun : new.project_id = key.project_id ∧ new.run_id = key.run_id) :
    ledgerOf db' key = ledgerOf db key ++ [new] := by
  simp [ledgerOf, hl, values, entries_put_new hfresh, hrun.1, hrun.2]

theorem ledger_named (h : (schedulingStore P).Reach System.free store) : LedgerNamed store.db := by
  refine h.invariant (I := fun store => LedgerNamed store.db) ?_ ?_
  · rintro _ ⟨projects, rfl⟩ claim_id record hget
    cases hget
  · intro store request hi _
    have hmove := (serve_effect (P := P) store request).ledger
    change LedgerNamed (store.serve P request).db
    generalize (store.serve P request).db = db' at hmove ⊢
    cases hmove with
    | kept same =>
      intro claim_id record hget
      rw [same] at hget
      exact hi claim_id record hget
    | claimed _ put => exact hi.put put rfl
    | reported _ after => exact hi.reported after

theorem consumptionRecord_run
    (h : consumptionRecord P key claim_id task_id grant document now ∈ ledgerOf db key') : key = key' := by
  obtain ⟨-, hproject, hrun⟩ := mem_ledgerOf.mp h
  exact RunKey.ext hproject hrun

def Sample.claimPayload (command_key task_id : String) : Json :=
  .object [("claim_key", .str command_key), ("task_id", .str task_id)]

end Karajan.Scheduling

-- One writer per directory tree

namespace Karajan.Scheduling

open Check Paths
variable {db : Db} {key : RunKey}

-- Zones

def segmentKey (P : Platform) (segment : List Char) : List Char :=
  rstripDotsAndSpaces (P.casefold (P.nfc (String.ofList segment))).toList

def segmentKeys (P : Platform) (path : String) : List (List Char) := (segments path).map (segmentKey P)

def LiesIn (P : Platform) (path zone : String) : Prop := segmentKeys P zone <+: segmentKeys P path

theorem segmentKeys_ne_nil (P : Platform) (path : String) : segmentKeys P path ≠ [] := by
  simp [segmentKeys, segments, List.splitOn_ne_nil]

theorem zoneRoot_toList (P : Platform) (zone : String) :
    (zoneRoot P zone).toList = trimmed '/' (['/'].intercalate (segmentKeys P zone)) := by
  simp only [zoneRoot, zoneKey, String.toList_ofList]
  rfl

theorem zonesOverlap_iff : zonesOverlap P one other = true ↔
    Under '/' (zoneRoot P one).toList (zoneRoot P other).toList ∨
      Under '/' (zoneRoot P other).toList (zoneRoot P one).toList := by
  simp only [zonesOverlap, Bool.or_eq_true, beq_iff_eq, startsWith_slash, Under, String.toList_inj]
  constructor
  · rintro ((h | h) | h)
    · exact .inr (.inl h)
    · exact .inr (.inr h)
    · exact .inl (.inr h)
  · rintro ((h | h) | (h | h))
    · exact .inl (.inl h.symm)
    · exact .inr h
    · exact .inl (.inl h)
    · exact .inl (.inr h)

theorem zonesOverlap_comm (P : Platform) (one other : String) :
    zonesOverlap P one other = zonesOverlap P other one := by
  rw [Bool.eq_iff_iff, zonesOverlap_iff, zonesOverlap_iff, or_comm]

theorem zoneRoot_under (h : segmentKeys P one <+: segmentKeys P other) :
    Under '/' (zoneRoot P one).toList (zoneRoot P other).toList := by
  rw [zoneRoot_toList, zoneRoot_toList]
  exact under_of_segments (segmentKeys_ne_nil P one) h

theorem zonesOverlap_of_liesIn (h : LiesIn P path one) (h' : LiesIn P path other) :
    zonesOverlap P one other = true := by
  rw [zonesOverlap_iff]
  rcases List.prefix_or_prefix_of_prefix h h' with hprefix | hprefix
  · exact .inl (zoneRoot_under hprefix)
  · exact .inr (zoneRoot_under hprefix)

-- Every run

/-- No two unreleased claims of one run on different tasks overlap. -/
def WritersApart (P : Platform) (db : Db) (key : RunKey) : Prop :=
  ∀ one ∈ ledgerOf db key, ∀ other ∈ ledgerOf db key, one.released = false →
    other.released = false → one.task_id ≠ other.task_id →
    zonesOverlap P one.write_zone other.write_zone = false

theorem Claimed.apart (hreach : (schedulingStore P).Reach System.free store)
    (h : Claimed P store.db key payload command_key clock claim_key task_id document grant admission)
    (hm : record ∈ ledgerOf store.db key) (hu : record.released = false) (hne : record.task_id ≠ task_id) :
    zonesOverlap P record.write_zone document.write_zone = false := by
  obtain ⟨_, _, -, -, -, hready⟩ := h.found
  refine hready.zone_free record hm hu ?_
  rwa [h.named hreach]

theorem WritersApart.serve (hreach : (schedulingStore P).Reach System.free store)
    (h : WritersApart P store.db key) : WritersApart P (store.serve P request).db key := by
  have hmove := (serve_effect (P := P) store request).ledger
  generalize (store.serve P request).db = db' at hmove ⊢
  cases hmove with
  | kept same => simpa [WritersApart, ledgerOf, same] using h
  | claimed claimed put =>
    intro one hone other hother hu hu' hne
    rcases mem_ledgerOf_put put hone with rfl | hone'
    · cases consumptionRecord_run hone
      rcases mem_ledgerOf_put put hother with rfl | hother'
      · exact absurd rfl hne
      · rw [zonesOverlap_comm]
        exact claimed.apart hreach hother' hu' hne.symm
    · rcases mem_ledgerOf_put put hother with rfl | hother'
      · cases consumptionRecord_run hother
        exact claimed.apart hreach hone' hu hne
      · exact h one hone' other hother' hu hu' hne
  | reported _ after =>
    intro one hone other hother hu hu' hne
    exact h one (mem_ledgerOf_reported after hone hu) other (mem_ledgerOf_reported after hother hu')
      hu hu' hne

theorem writers_apart (h : (schedulingStore P).Reach System.free store) (key : RunKey) :
    WritersApart P store.db key := by
  suffices hboth : (schedulingStore P).Reach System.free store ∧ WritersApart P store.db key from
    hboth.2
  refine h.invariant (I := fun store =>
    (schedulingStore P).Reach System.free store ∧ WritersApart P store.db key) ?_ ?_
  · rintro _ ⟨projects, rfl⟩
    refine ⟨.init ⟨projects, rfl⟩, ?_⟩
    intro one hone
    cases hone
  · rintro store request ⟨hreach, hi⟩ _
    exact ⟨hreach.step trivial, hi.serve hreach⟩

/-- No path lies in the write zones of two unreleased claims on different tasks. -/
theorem one_writer (h : (schedulingStore P).Reach System.free store) (key : RunKey) :
    ∀ one ∈ ledgerOf store.db key, ∀ other ∈ ledgerOf store.db key, one.released = false →
      other.released = false → one.task_id ≠ other.task_id →
      ¬ ∃ path, LiesIn P path one.write_zone ∧ LiesIn P path other.write_zone := by
  rintro one hone other hother hu hu' hne ⟨path, hpath, hpath'⟩
  have hapart := writers_apart h key one hone other hother hu hu' hne
  rw [zonesOverlap_of_liesIn hpath hpath'] at hapart
  cases hapart

namespace Sample

def writer (item_key write_zone : String) : Json :=
  .object [("item_key", .str item_key), ("role_alias", .str "a"), ("execution_kind_ref", .str "k"),
    ("output_contract_ref", .str "c"), ("write_zone", .str write_zone),
    ("required_outcomes", Json.ofTexts ["o"])]

def writing : List Request :=
  opened ++ [submit "1" 0 (expand "e" [writer "1" "d/x", writer "2" "d/y"] ["d1.1", "d1.2"]),
    claim "1" "d1.1", claim "2" "d1.2"]

end Sample

/-- Two writers are at work, in directories with no common path. -/
theorem one_writer_each : ∃ one ∈ ledgerOf (Sample.after Sample.writing).db Sample.key,
      ∃ other ∈ ledgerOf (Sample.after Sample.writing).db Sample.key,
        one.task_id = "d1.1" ∧ other.task_id = "d1.2" ∧
        ¬ ∃ path, LiesIn Sample.platform path one.write_zone ∧
          LiesIn Sample.platform path other.write_zone := by
  have hboth : ∃ one ∈ ledgerOf (Sample.after Sample.writing).db Sample.key,
      ∃ other ∈ ledgerOf (Sample.after Sample.writing).db Sample.key,
        one.task_id = "d1.1" ∧ other.task_id = "d1.2" ∧ one.released = false ∧
          other.released = false := by decide +kernel
  obtain ⟨one, hone, other, hother, ht, ht', hu, hu'⟩ := hboth
  refine ⟨one, hone, other, hother, ht, ht', ?_⟩
  exact one_writer (Sample.after_reach Sample.writing) Sample.key one hone other hother hu hu'
    (by rw [ht, ht']; decide)

end Karajan.Scheduling
