import Karajan.Scheduling.TaskTable

/-!
# The join barrier

A task that joins an expansion set is handed out once the set is sealed and
every required member's pinned version has a settled result. A reference to a
set the run does not have holds nothing back, so the barrier stands exactly as
far as the references name sets of the run.
-/

namespace Karajan.Scheduling

open List Check
open Sample (platform after claimPayload worker after_reach)
variable {id : String}

/-- The version a seal pinned of a member was completed and settled. -/
structure Converged (db : Db) (key : RunKey) (member : Member) : Prop where
  completed : ∃ row, (db.tasks key).get? member.task_id = some row ∧ row.record.state = .completed
  settled : ∃ record ∈ ledgerOf db key, record.task_id = member.task_id ∧ record.released = true ∧
    (∃ by_ref, record.reconciled_by = some by_ref) ∧
    (∃ outcome ∈ terminalOutcomes, record.outcome = some outcome) ∧
    member.revision = some record.task_revision ∧ member.digest = record.task_digest

/-- A set is sealed and its required members other than `task_id` converged. -/
structure Joined (db : Db) (key : RunKey) (task_id : String) (expansion : Expansion) : Prop where
  isSealed : expansion.state = .sealed
  members : ∀ member ∈ expansion.members.values, member.task_id ≠ task_id →
    member.required = true → Converged db key member

-- What holds a task back

theorem joinBlocked_some (ht : task ∈ tasks.values)
    (hr : reference ∈ task.joins) (hget : expansions.get? reference = some joined)
    (hreason : joinReason tasks resolved task joined = some reason) :
    (joinBlocked expansions tasks resolved).contains task.task_id = true := by
  let Held (blocked : Dict String WaitingReason) : Prop := blocked.contains task.task_id = true
  refine foldl_marks (I := Held) ht ?_ (fun blocked other hb => held_joins other.joins hb) _
  intro blocked
  refine foldl_marks (I := Held) hr ?_ (fun blocked name hb => held_join name hb) _
  intro blocked
  simp only [Held, hget, Option.bind_some, hreason]
  exact Dict.contains_iff.mpr (Dict.mem_keys_put.mpr (.inl rfl))

theorem mem_resolvedVersions (h : (resolvedVersions ledger).get? id = some settled) :
    ∃ record ∈ ledger, record.task_id = id ∧ record.released = true ∧
      (∃ by_ref, record.reconciled_by = some by_ref) ∧
      (∃ outcome ∈ terminalOutcomes, record.outcome = some outcome) ∧
      settled = (record.task_revision, record.task_digest) := by
  have hm := Dict.mem_of_get?_ofList h
  simp only [mem_map, mem_filter, Bool.and_eq_true, Option.isSome_iff_exists,
    Option.any_eq_true, contains_eq_mem, decide_eq_true_eq, Prod.mk.injEq] at hm
  obtain ⟨record, ⟨hledger, ⟨hreleased, hby⟩, outcome, hout, hterminal⟩, hid, hversion⟩ := hm
  exact ⟨record, hledger, hid, hreleased, hby, ⟨outcome, hterminal, hout⟩, hversion.symm⟩

theorem converged_of_pendingMember (htasks : tasksOf P (db.runs key) = .ok tasks)
    (h : pendingMember tasks (resolvedVersions (ledgerOf db key)) task_id member = false)
    (hne : member.task_id ≠ task_id) (hrequired : member.required = true) : Converged db key member := by
  simp only [pendingMember, hne, hrequired, decide_false, Bool.not_true, Bool.or_self,
    Bool.false_eq_true, if_false] at h
  split at h
  case h_1 => cases h
  case h_2 holder hholder =>
    simp only [Bool.or_eq_false_iff, decide_eq_false_iff_not, ne_eq, not_not] at h
    obtain ⟨hstate, h⟩ := h
    split at h
    case h_2 => cases h
    case h_1 revision settled hrevision hsettled =>
      simp only [Bool.or_eq_false_iff, decide_eq_false_iff_not, not_not] at h
      obtain ⟨row, hrow, rfl⟩ := found_of_tasksOf ⟨tasks, htasks, hholder⟩
      obtain ⟨record, hm, hid, hreleased, hby, hout, rfl⟩ := mem_resolvedVersions hsettled
      refine ⟨⟨row, hrow, hstate⟩, record, hm, hid, hreleased, hby, hout, ?_, h.2.symm⟩
      rw [hrevision]
      exact congrArg some h.1.symm

theorem joined_of_joinReason (htasks : tasksOf P (db.runs key) = .ok tasks)
    (h : joinReason tasks (resolvedVersions (ledgerOf db key)) task joined = none) :
    Joined db key task.task_id joined := by
  unfold joinReason at h
  split at h
  · cases h
  case isFalse hsealed =>
    split at h
    · cases h
    case isFalse hpending =>
      simp only [Bool.not_eq_true, any_eq_false] at hpending
      refine ⟨not_not.mp hsealed, fun member hm hne hrequired => ?_⟩
      exact converged_of_pendingMember htasks (by simpa using hpending member hm) hne hrequired

-- A task that is handed out

theorem Claimed.joined {joined : Expansion} (hreach : (schedulingStore P).Reach System.free store)
    (h : Claimed P store.db key payload command_key clock claim_key task_id document grant admission)
    (hr : reference ∈ document.joins) (hget : (store.db.runs key).task_expansions.get? reference = some joined) :
    Joined store.db key document.task_id joined := by
  obtain ⟨tasks, expansions, htasks, hdocument, hexpansions, hready⟩ := h.found
  have hnamed := h.named hreach
  subst hnamed
  rw [← expansionsOf_ok hexpansions] at hget
  cases hreason : joinReason tasks (resolvedVersions (ledgerOf store.db key)) document joined with
  | none => exact joined_of_joinReason htasks hreason
  | some reason =>
    have hheld := joinBlocked_some (Dict.mem_values.mpr ⟨_, hdocument⟩) hr hget hreason
    rw [Dict.contains, hready.joined] at hheld
    cases hheld

/-- Whenever a claim hands a task out, the sets it joins exist, are sealed and
converged exactly if each of its references names a set of the run. A claim that
repeats an earlier one hands nothing out. -/
theorem join_barrier (h : (schedulingStore P).Reach System.free store) (key : RunKey)
    (hclaim : claim P store.db key payload principal command_key clock = .ok (result, db')) :
    (result.2 = false ∧ db' = store.db) ∨
      (result.2 = true ∧ ∃ row, (store.db.tasks key).get? result.1.task_id = some row ∧
        ((∀ reference ∈ row.record.joins, ∃ expansion,
            (store.db.runs key).task_expansions.get? reference = some expansion ∧
              Joined store.db key result.1.task_id expansion) ↔ ∀ reference ∈ row.record.joins, ∃ expansion,
            (store.db.runs key).task_expansions.get? reference = some expansion)) := by
  rcases claim_ok hclaim with hrepeat | ⟨_, _, document, grant, _, _, hc, rfl, rfl⟩
  · exact .inl hrepeat
  · obtain ⟨tasks, _, htasks, hdocument, -⟩ := hc.found
    obtain ⟨row, hrow, rfl⟩ := found_of_tasksOf ⟨tasks, htasks, hdocument⟩
    rw [← hc.named h] at hrow
    refine .inr ⟨rfl, row, hrow, ?_, ?_⟩
    · intro hjoined reference hr
      obtain ⟨expansion, hget, -⟩ := hjoined reference hr
      exact ⟨expansion, hget⟩
    · intro hknown reference hr
      obtain ⟨expansion, hget⟩ := hknown reference hr
      exact ⟨expansion, hget, hc.joined h hr hget⟩

namespace Sample

def joining (reference : String) : List Request :=
  opened ++ [submit "1" 0 (expand "e"
    [task "1", task "2" [("joins", Json.ofTexts [reference])]] ["d1.1", "d1.2"])]

def converged : List Request := joining "e" ++ [claim "1" "d1.1", report "d1.1" "completed" user true]

end Sample

open Sample (converged key clock joining)

/-- The second task is handed out, and the set it joins has converged. -/
theorem join_barrier_converged : ∃ result db', claim platform (after converged).db key
        (claimPayload "2" "d1.2") worker "2" clock = .ok (result, db') ∧ result.2 = true ∧
      ∃ expansion, ((after converged).db.runs key).task_expansions.get? "e" = some expansion ∧
        Joined (after converged).db key result.1.task_id expansion := by
  have hreach := after_reach converged
  have hok : (claim platform (after converged).db key
      (claimPayload "2" "d1.2") worker "2" clock).toOption.map (fun answer => (answer.1.2,
          (((after converged).db.tasks key).get? answer.1.1.task_id).map
            fun row => row.record.joins,
          ((after converged).db.runs key).task_expansions.contains "e")) =
      some (true, some ["e"], true) := by
    decide +kernel
  generalize after converged = store at hreach hok ⊢
  obtain ⟨⟨result, db'⟩, hclaim, hfacts⟩ := ok_of_map hok
  simp only [Prod.mk.injEq, Option.map_eq_some_iff] at hfacts
  obtain ⟨hfresh, ⟨row', hrow', hjoins⟩, hexists⟩ := hfacts
  refine ⟨result, db', hclaim, hfresh, ?_⟩
  rcases join_barrier hreach key hclaim with ⟨hrepeat, -⟩ | ⟨-, row, hrow, hiff⟩
  · rw [hrepeat] at hfresh; cases hfresh
  · have hsame := hrow.symm.trans hrow'
    cases hsame
    rw [hjoins] at hiff
    refine hiff.mpr ?_ "e" (by simp)
    simpa using Dict.mem_keys.mp (Dict.contains_iff.mp hexists)

/-- A task that joins a set the run does not have is handed out. -/
theorem unknown_set_joined : ∃ store result db' row, Sample.system.Reach System.free store ∧
      claim platform store.db key (claimPayload "2" "d1.2") worker "2" clock =
          .ok (result, db') ∧ result.2 = true ∧
      (store.db.tasks key).get? "d1.2" = some row ∧ "x" ∈ row.record.joins ∧
      (store.db.runs key).task_expansions.get? "x" = none := by
  have hreach := after_reach (joining "x")
  have hok : (claim platform (after (joining "x")).db key
      (claimPayload "2" "d1.2") worker "2" clock).toOption.map (fun answer => (answer.1.2,
          (((after (joining "x")).db.tasks key).get? "d1.2").map
            fun row => row.record.joins,
          ((after (joining "x")).db.runs key).task_expansions.contains "x")) =
      some (true, some ["x"], false) := by
    decide +kernel
  generalize after (joining "x") = store at hreach hok ⊢
  obtain ⟨⟨result, db'⟩, hclaim, hfacts⟩ := ok_of_map hok
  simp only [Prod.mk.injEq, Option.map_eq_some_iff] at hfacts
  obtain ⟨hfresh, ⟨row, hrow, hjoins⟩, hnone⟩ := hfacts
  exact ⟨store, result, db', row, hreach, hclaim, hfresh, hrow, by simp [hjoins],
    Dict.contains_eq_false.mp hnone⟩

end Karajan.Scheduling
