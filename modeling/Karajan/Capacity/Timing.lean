import Karajan.Capacity.Lifecycle

/-!
# A reservation is written in time

The fence of a decision, the decision taken again and the recheck of what time
has changed accept the same instants. An admission looks at the clock through
the fence alone, and so writes its reservation under a decision that would be
made at its last reading too.
-/

namespace Karajan.Capacity

open List Check
variable {s s' : State}

/-- The reservations that are still held once the lapsed ones are dropped. -/
def heldAt (held : List Reservation) (now : Rat) : List Reservation := held.filter fun item => !item.lapsed now

def Decides (t : Tables) (request : AdmissionRequest) (profile : Profile) (policy : Policy)
    (policy_revision : Nat) (held : List Reservation) (now : Rat) : Prop :=
  ∃ evaluation, evaluate t request profile policy policy_revision held now = .ok evaluation ∧
    evaluation.reasons = []

/-- At every instant after a decision with nothing against it, its fence, the decision
itself and the temporal recheck say the same. -/
theorem fence_decides (h : evaluate t request profile policy policy_revision held evaluated_at = .ok evaluation)
    (hreasons : evaluation.reasons = []) (hnow : evaluated_at ≤ now) :
    ∃ fence, temporalFence policy evaluation.observations evaluated_at = .ok fence ∧
      (fence.current now = true ↔ Decides t request profile policy policy_revision (heldAt held now) now) ∧
      (fence.current now = true ↔ finalTemporalReasons request policy held evaluation.observations
        now evaluated_at = []) := by
  obtain ⟨fence, hfence, -, hcurrent⟩ := temporalFence_later h hreasons
  have htimely : fence.current now = true ↔ AllTimely evaluation.observations policy now := by
    rw [hcurrent, and_iff_right hnow]
  refine ⟨fence, hfence, ?_, ?_⟩
  · exact htimely.trans (evaluate_later h hreasons filter_sublist hnow).symm
  · exact htimely.trans (finalTemporalReasons_later h hreasons hnow).symm

theorem expires_request (hexpires : Expires t t') (hk : Keyed t) (h : t.reservations.get? k = some item) :
    ∃ item', t'.reservations.get? k = some item' ∧ item'.request = item.request := by
  cases expires_lapses hexpires hk h with
  | kept hitem _ => exact ⟨item, hitem, rfl⟩
  | expired _ hitem _ _ => exact ⟨item.expire, hitem, rfl⟩

theorem expires_new (hexpires : Expires t t') (hk : Keyed t) (h : t'.reservations.get? k = some item') :
    ∃ item, t.reservations.get? k = some item ∧ item'.request = item.request := by
  induction hexpires generalizing item' with
  | refl => exact ⟨item', h, rfl⟩
  | @tail m _ hexpires hlast ih =>
    obtain ⟨account, now, rfl⟩ := hlast
    rw [expire_get? (Expires.keyed hexpires hk), Option.map_eq_some_iff] at h
    obtain ⟨between, hbetween, rfl⟩ := h
    obtain ⟨item, hitem, hrequest⟩ := ih hbetween
    exact ⟨item, hitem, by rw [Reservation.lapse_request, hrequest]⟩

theorem Assesses.decided (hk : Keyed t) (h : Assesses t request clock found rest t')
    (hreasons : found.evaluation.reasons = []) (hle : found.now ≤ last)
    (htimely : AllTimely found.evaluation.observations found.policy last) :
    ∃ again t'', admissionEvaluation request [some last] t = .ok (again, [], t'') ∧
      again.evaluation.reasons = [] := by
  have hassessed := h.assessed
  have hattempt : (!t.reservations.values.any (·.request.attempt_id = request.attempt_id)) = true := by
    simp only [Bool.not_eq_true', any_eq_false, decide_eq_true_eq]
    intro item hitem
    obtain ⟨k, hk'⟩ := Dict.mem_values.mp hitem
    obtain ⟨item', hitem', hrequest⟩ := expires_request h.expires hk hk'
    exact hrequest ▸ hassessed.attempt k item' hitem'
  have hknown := h.profiles ▸ hassessed.known
  have hcurrent : t.policy found.profile.account_id = some found.policy := by
    rw [Tables.policy, ← h.policies]
    exact hassessed.current
  have hrevision : found.policy_revision = t.policyRevision found.profile.account_id := by
    rw [Tables.policyRevision, ← h.policies]
    exact hassessed.revision
  have hsub : ((expire found.profile.account_id last t).held found.profile.account_id).Sublist
      found.held := by
    have hheld : (expire found.profile.account_id last t).held found.profile.account_id =
        heldAt found.held last := by
      rw [held_expire hk, heldAt, h.held, filter_filter]
      refine filter_congr fun item _ => ?_
      cases hlapsed : item.lapsed found.now with
      | true => simp [Reservation.lapsed_mono hlapsed hle]
      | false => simp
    rw [hheld]
    exact filter_sublist
  obtain ⟨later, hlater, hnone⟩ := (evaluate_later hassessed.evaluated hreasons hsub hle).mpr htimely
  rw [h.unchanged, hrevision] at hlater
  have hagain : evaluate (expire found.profile.account_id last t) _ _ _ _ _ _ = _ := evaluate_expire.trans hlater
  refine ⟨⟨found.profile, found.policy, t.policyRevision found.profile.account_id, last,
    (expire found.profile.account_id last t).held found.profile.account_id, later⟩,
    expire found.profile.account_id last t, ?_, hnone⟩
  simp only [admissionEvaluation, hattempt, ensure, if_true, hknown, hcurrent, need, readClock, ok_bind, hagain]
  rfl

/-- What a decision about a request leaves behind: its readings of the clock never
decrease; an admission wrote its reservation before that expired, at a reading where the
whole decision still holds; a rejection leaves the attempt without a reservation. -/
structure Timed (t : Tables) (request : AdmissionRequest) (w : World) (decision : Decision)
    (t' : Tables) : Prop where
  sampled : ∃ last rest, Sampled w.clock last rest ∧
    ∀ identity, decision.admission_id = some identity → ∃ item again t'',
      t.reservations.get? identity = none ∧ t'.reservations.get? identity = some item ∧
      item.request = request ∧ last < item.expires_at ∧
      admissionEvaluation request [some last] t = .ok (again, [], t'') ∧
      again.evaluation.reasons = []
  rejected : decision.admission_id = none → decision.reason_codes ≠ [] ∧
    ∀ k item, t'.reservations.get? k = some item → item.request.attempt_id ≠ request.attempt_id

section
variable (hk : Keyed t) (h : admitAttempt request w t = .ok (decision, rest, t'))
include hk h

theorem admit_timed : Timed t request w decision t' := by
  obtain ⟨found, clock, m, hassesses, hrejected | ⟨item, hconcluded, hnew, rfl, rfl⟩⟩ := admit_ok hk h
  · obtain ⟨reasons, last, hreasons, hsampled, rfl, rfl⟩ := hrejected
    exact ⟨⟨last, rest, hsampled, fun _ hid => nomatch hid⟩, fun _ => ⟨hreasons, hassesses.assessed.attempt⟩⟩
  · obtain ⟨hreasons, created_at, last, rfl, hsampled, hle, hexpires, htimely⟩ := hconcluded
    obtain ⟨again, t'', hagain, hnone⟩ := hassesses.decided hk hreasons hle htimely
    refine ⟨⟨last, rest, hsampled, fun identity hid => ?_⟩, fun hid => nomatch hid⟩
    cases hid
    refine ⟨_, again, t'', ?_, Dict.get?_put_self, rfl, hexpires, hagain, hnone⟩
    change t.reservations.get? w.identity = none
    cases hold : t.reservations.get? w.identity with
    | none => rfl
    | some old =>
      obtain ⟨item', hitem', -⟩ := expires_request hassesses.expires hk hold
      exact absurd (hnew.symm.trans hitem') (by simp)

theorem admit_rows (hitem : t'.reservations.get? k = some item) :
    (∃ old, t.reservations.get? k = some old ∧ item.request = old.request) ∨
      decision.admission_id = some k := by
  obtain ⟨found, clock, m, hassesses, hrejected | ⟨new, -, -, rfl, rfl⟩⟩ := admit_ok hk h
  · obtain ⟨_, _, _, _, _, rfl⟩ := hrejected
    exact .inl (expires_new hassesses.expires hk hitem)
  · rw [Dict.get?_put] at hitem
    split at hitem
    case isTrue heq => exact .inr (congrArg some heq)
    · exact .inl (expires_new hassesses.expires hk hitem)

end

theorem command_admit (ha : a.command = .admitAttempt request)
    (hk : Keyed s.tables) (hitem : (s.step L a).tables.reservations.get? k = some item) :
    (∃ old, s.tables.reservations.get? k = some old ∧ item.request = old.request) ∨
      s.commands.get? a.command_key = none ∧ ∃ decision s',
        s.command L a.command_key a.command a.world = .ok (.decided decision, s') ∧
        decision.admission_id = some k := by
  unfold State.step at hitem
  split at hitem
  case h_1 result s' hcommand =>
    obtain ⟨rfl, -⟩ | ⟨hnew, tables, happly, rfl⟩ := command_ok hcommand
    · exact .inl ⟨item, hitem, rfl⟩
    · rw [ha] at happly
      obtain ⟨⟨decision, rest, t'⟩, hadmit, heq⟩ := map_ok.mp happly
      cases heq
      obtain hold | hid := admit_rows hk hadmit hitem
      · exact .inl hold
      · exact .inr ⟨hnew, decision, _, hcommand, hid⟩
  · exact .inl ⟨item, hitem, rfl⟩

section Sample

end Sample

end Karajan.Capacity
