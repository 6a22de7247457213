import Karajan.Capacity.Store
import Karajan.Capacity.Fence

/-!
# What a command does

A command that goes through expires reservations, and after that makes one edit
of the tables at most. The edits say what each of them rests on; what holds over
every run is proved of an expiry and of each edit, not of the commands.
-/

namespace Karajan.Capacity

open List Dict Check

-- Expiry

def Keyed (t : Tables) : Prop := ∀ k item, t.reservations.get? k = some item → item.id = k

def Reservation.lapse (account_id : String) (now : Rat) (item : Reservation) : Reservation :=
  if item.account_id = account_id ∧ item.lapsed now then item.expire else item

variable {item : Reservation}

@[simp] theorem Reservation.expire_id : item.expire.id = item.id := rfl

@[simp] theorem Reservation.lapse_id : (item.lapse account now).id = item.id := by
  unfold lapse
  split <;> simp

@[simp] theorem Reservation.lapse_request : (item.lapse account now).request = item.request := by
  unfold lapse
  split <;> rfl

@[simp] theorem Reservation.lapse_account : (item.lapse account now).account_id = item.account_id := by
  unfold lapse
  split <;> rfl

theorem Reservation.lapsed_reserved (h : item.lapsed now = true) : item.state = .reserved := by
  simp only [lapsed, Bool.and_eq_true, decide_eq_true_eq] at h
  exact h.1

theorem foldl_save {l : List Reservation} : l.foldl (fun t item => save item.expire event t) t = { t with
        reservations := l.foldl (fun d item => d.put item.id item.expire) t.reservations
        lifecycle := t.lifecycle ++ l.map fun item => ⟨item.id, event⟩ } := by
  induction l generalizing t with
  | nil => simp
  | cons item l ih =>
    rw [foldl_cons, ih]
    simp [save]

def lapsedOf (account_id : String) (now : Rat) (t : Tables) : List Reservation :=
  (t.reservationsOf account_id).filter (·.lapsed now)

theorem expire_reservations (hk : Keyed t) : (expire account now t).reservations =
      t.reservations.mapValues fun _ item => item.lapse account now := by
  let due : String × Reservation → Bool := fun e => e.2.account_id = account && e.2.lapsed now
  have hentries : ∀ e ∈ t.reservations.entries.filter due, t.reservations.get? e.1 = some e.2 :=
    fun e he => get?_eq_some.mpr (mem_of_mem_filter he)
  have hids : ∀ e ∈ t.reservations.entries.filter due, e.2.id = e.1 :=
    fun e he => hk e.1 e.2 (hentries e he)
  have hdue : lapsedOf account now t = (t.reservations.entries.filter due).map Prod.snd := by
    simp [lapsedOf, Tables.reservationsOf, values, filter_map, filter_filter, due,
      Function.comp_def, Bool.and_comm]
  have hfold : (expire account now t).reservations =
      (t.reservations.entries.filter due).foldl (fun d e => d.put e.1 e.2.expire)
        t.reservations := by
    rw [expire, foldl_save]
    change (lapsedOf account now t).foldl _ _ = _
    rw [hdue, foldl_map]
    refine foldl_ext _ _ _ fun d e he => ?_
    rw [hids e he]
  have hnodup : ((t.reservations.entries.filter due).map Prod.fst).Nodup :=
    t.reservations.nodup.sublist (List.Sublist.map _ filter_sublist)
  rw [hfold, foldl_put_eq_mapValues hnodup hentries]
  refine mapValues_congr fun k item h => ?_
  have hmem : k ∈ (t.reservations.entries.filter due).map Prod.fst ↔ due (k, item) = true := by
    constructor
    · intro hk'
      obtain ⟨e, he, rfl⟩ := List.mem_map.mp hk'
      have heq : some e.2 = some item := (hentries e he).symm.trans h
      cases heq
      exact of_mem_filter he
    · intro hd
      exact List.mem_map.mpr ⟨(k, item), List.mem_filter.mpr ⟨get?_eq_some.mp h, hd⟩, rfl⟩
  simp [hmem, due, Reservation.lapse]

theorem expire_lifecycle : (expire account now t).lifecycle = t.lifecycle ++ (lapsedOf account now t).map
      fun item => ⟨item.id, .unsentReservationExpired now⟩ := by
  rw [expire, foldl_save]
  rfl

theorem expire_eq : expire account now t =
    { t with
      reservations := (expire account now t).reservations
      lifecycle := (expire account now t).lifecycle } := by
  rw [expire, foldl_save]

theorem expire_pools : (expire account now t).pools = t.pools := by rw [expire_eq]

theorem expire_profiles : (expire account now t).profiles = t.profiles := by rw [expire_eq]

theorem expire_observations : (expire account now t).observations = t.observations := by
  rw [expire_eq]

theorem expire_policies : (expire account now t).policies = t.policies := by rw [expire_eq]

theorem expire_usage : (expire account now t).usage = t.usage := by rw [expire_eq]

theorem expire_get? (hk : Keyed t) : (expire account now t).reservations.get? k =
    (t.reservations.get? k).map (·.lapse account now) := by
  rw [expire_reservations hk, get?_mapValues]

theorem expire_keyed (hk : Keyed t) : Keyed (expire account now t) := by
  intro k item h
  rw [expire_get? hk, Option.map_eq_some_iff] at h
  obtain ⟨old, hold, rfl⟩ := h
  rw [Reservation.lapse_id]
  exact hk k old hold

theorem expire_values (hk : Keyed t) : (expire account now t).reservations.values =
    t.reservations.values.map (·.lapse account now) := by
  simp [expire_reservations hk, values, mapValues, Function.comp_def]

theorem held_expire (hk : Keyed t) : (expire account now t).held account =
    (t.held account).filter fun item => !item.lapsed now := by
  simp only [Tables.held, Tables.reservationsOf, expire_values hk, filter_map,
    filter_filter, Function.comp_def, Reservation.lapse_account]
  have hpred : ∀ item : Reservation,
      ((item.lapse account now).state.holds && decide (item.account_id = account)) =
        (!item.lapsed now && (item.state.holds && decide (item.account_id = account))) := by
    intro item
    unfold Reservation.lapse
    by_cases haccount : item.account_id = account
    · cases hl : item.lapsed now with
      | true => simp [haccount, Reservation.expire, ReservationState.holds]
      | false => simp [haccount]
    · simp [haccount]
  rw [filter_congr fun item _ => hpred item]
  refine (map_congr_left fun item hi => ?_).trans (map_id _)
  have hl := of_mem_filter hi
  simp only [Bool.and_eq_true, Bool.not_eq_true', decide_eq_true_eq] at hl
  simp [Reservation.lapse, hl.1]

def Expires : Tables → Tables → Prop :=
  Relation.ReflTransGen fun t t' => ∃ account now, t' = expire account now t

theorem Expires.one : Expires t (expire account now t) := .single ⟨account, now, rfl⟩

theorem Expires.more (h : Expires t t') : Expires t (expire account now t') :=
  h.tail ⟨account, now, rfl⟩

theorem Expires.keeps {I : Tables → Prop}
    (hstep : ∀ t account now, I t → I (expire account now t)) (h : Expires t t') (ht : I t) : I t' := by
  induction h with
  | refl => exact ht
  | tail _ hlast ih =>
    obtain ⟨account, now, rfl⟩ := hlast
    exact hstep _ _ _ ih

theorem Expires.keyed (h : Expires t t') (hk : Keyed t) : Keyed t' :=
  h.keeps (fun _ _ _ => expire_keyed) hk

-- Edits

/-- A command brings a reservation from one state to another. -/
inductive Turn (t : Tables) (item : Reservation) : Reservation → Event → Prop
  | activated (hstate : item.state = .reserved) :
      Turn t item (item.activated now policy_revision) (.activationIntent now)
  | cancelled (hstate : item.state = .reserved) :
      Turn t item (item.cancelled cancellation) (.cancelledUnactivated now cancellation)
  | reconciled (hstate : item.state.holds = true) (hid : evidence.admission_id = item.id)
      (h : reconciledState t item evidence = .ok state) :
      Turn t item (item.reconciled state evidence) (.reconciled now evidence)

structure Observes (t : Tables) (row : ObservationRow) : Prop where
  pool : ∃ pool, t.pools.get? row.observation.pool_id = some pool ∧
    (pool.window_kind = .fixed → ∀ old ∈ t.appliedTo row.observation.pool_id,
      row.observation.windowConflict old = false)
  reset : ∀ reset, row.observation.reset_at = some reset → row.observation.observed_at < reset
  applied : row.applied = row.observation.applies (t.observation row.observation.pool_id)

/-- What a reservation is admitted on: a decision with nothing against it. -/
structure Reserves (t : Tables) (item : Reservation) (profile : Profile) (policy : Policy)
    (now : Rat) (evaluation : Evaluation) : Prop where
  known : t.profiles.get? (item.request.profile_id, item.request.profile_revision) = some profile
  current : t.policy profile.account_id = some policy
  evaluated : evaluate t item.request profile policy (t.policyRevision profile.account_id)
    (t.held profile.account_id) now = .ok evaluation
  reasons : evaluation.reasons = []
  state : item.state = .reserved
  account : item.account_id = profile.account_id
  identity : t.reservations.get? item.id = none
  attempt : ∀ k other, t.reservations.get? k = some other →
    other.request.attempt_id ≠ item.request.attempt_id

structure Uses (t : Tables) (item : Reservation) (row : UsageRow) : Prop where
  identity : t.usage.get? row.receipt.id = none
  reservation : t.reservations.get? row.receipt.admission_id = some item
  state : item.state = .active ∨ item.state = .unknown ∨ item.state = .ended
  account : row.account_id = item.account_id
  pools : ∀ pool_id, pool_id ∈ row.receipt.amounts.keys ↔ pool_id ∈ item.request.demand.keys
  windows : ∀ pool_id window_id, row.receipt.window_ids.get? pool_id = some (some window_id) →
    ∃ found ∈ t.appliedTo pool_id, found.window_id = window_id ∧
      row.window_resets.get? pool_id = some found.reset_at

inductive Edit (t : Tables) : Tables → Prop
  | nothing : Edit t t
  | pool {pool : Pool} (hnew : t.pools.get? pool.id = none) :
      Edit t { t with pools := t.pools.put pool.id pool }
  | profile {profile : Profile} (hpools : ∀ pool_id ∈ profile.pool_ids, ∃ pool,
        t.pools.get? pool_id = some pool ∧ pool.account_id = profile.account_id)
      (hserved : ∃ pool_id ∈ profile.pool_ids, ∃ pool,
        t.pools.get? pool_id = some pool ∧ pool.kind = .service)
      (hnew : t.profiles.get? (profile.id, profile.revision) = none) :
      Edit t { t with profiles := t.profiles.put (profile.id, profile.revision) profile }
  | observation {row : ObservationRow} (h : Observes t row) :
      Edit t { t with observations := t.observations ++ [row] }
  | policy {policy : Policy} :
      Edit t { t with
        policies := t.policies.put policy.account_id
          ((t.policies.get? policy.account_id).getD [] ++ [policy]) }
  | turn {item item' : Reservation} {event : Event}
      (hitem : t.reservations.get? item.id = some item) (hturn : Turn t item item' event) :
      Edit t (save item' event t)
  | reservation {item : Reservation} {profile : Profile} {policy : Policy} {now : Rat}
      {evaluation : Evaluation} (h : Reserves t item profile policy now evaluation) :
      Edit t { t with reservations := t.reservations.put item.id item }
  | usage {item : Reservation} {row : UsageRow} (h : Uses t item row) :
      Edit t { t with usage := t.usage.put row.receipt.id row }
  | failure {row : FailureRow} : Edit t { t with failures := t.failures ++ [row] }

-- How an admission goes

variable {clock clock' rest : Clock}

-- The clock

def Sampled (clock : Clock) (last : Rat) (rest : Clock) : Prop :=
  ∃ read : List Rat, clock = (read ++ [last]).map some ++ rest ∧
    (read ++ [last]).Pairwise (· ≤ ·)

theorem readClock_ok : readClock clock = .ok (now, rest) ↔ clock = some now :: rest := by
  unfold readClock
  split <;> simp

theorem Sampled.first : Sampled (some now :: rest) now rest := ⟨[], rfl, by simp⟩

theorem Sampled.next (h : Sampled clock now (some later :: rest)) (hle : now ≤ later) :
    Sampled clock later rest := by
  obtain ⟨read, rfl, hsorted⟩ := h
  refine ⟨read ++ [now], by simp, ?_⟩
  rw [pairwise_append]
  refine ⟨hsorted, by simp, fun a ha b hb => ?_⟩
  rw [List.mem_singleton.mp hb]
  refine le_trans ?_ hle
  rw [pairwise_append] at hsorted
  rcases List.mem_append.mp ha with ha | ha
  · exact hsorted.2.2 a ha now (by simp)
  · exact le_of_eq (List.mem_singleton.mp ha)

theorem Reservation.lapsed_mono (h : item.lapsed now = true) (hle : now ≤ later) : item.lapsed later = true := by
  simp only [lapsed, Bool.and_eq_true, decide_eq_true_eq] at h ⊢
  exact ⟨h.1, le_trans h.2 hle⟩

-- Assessing

theorem evaluate_expire : evaluate (expire account at_time t) request profile policy policy_revision held now =
      evaluate t request profile policy policy_revision held now := by
  rw [expire_eq]
  rfl

theorem policy_expire : (expire account at_time t).policy account_id = t.policy account_id := by
  rw [Tables.policy, expire_policies]
  rfl

theorem policyRevision_expire :
    (expire account at_time t).policyRevision account_id = t.policyRevision account_id := by
  rw [Tables.policyRevision, expire_policies]
  rfl

structure Assessed (t : Tables) (request : AdmissionRequest) (found : Assessment) : Prop where
  known : t.profiles.get? (request.profile_id, request.profile_revision) = some found.profile
  current : t.policy found.profile.account_id = some found.policy
  revision : found.policy_revision = t.policyRevision found.profile.account_id
  held : found.held = t.held found.profile.account_id
  evaluated : evaluate t request found.profile found.policy found.policy_revision found.held
    found.now = .ok found.evaluation
  attempt : ∀ k other, t.reservations.get? k = some other →
    other.request.attempt_id ≠ request.attempt_id

theorem admissionEvaluation_ok (hk : Keyed t) : admissionEvaluation request clock t = .ok (found, rest, t') →
      clock = some found.now :: rest ∧ t' = expire found.profile.account_id found.now t ∧
        Assessed t' request found := by
  simp only [admissionEvaluation, bind_ok, ensure_ok, need_ok, pure_ok, readClock_ok, Prod.exists,
    Prod.mk.injEq]
  rintro ⟨_, hattempt, profile, hprofile, policy, hpolicy, now, clock', hclock, evaluation,
    hevaluation, rfl, rfl, rfl⟩
  refine ⟨hclock, rfl, ⟨?_, ?_, ?_, ?_, ?_, ?_⟩⟩
  · rw [expire_profiles]
    exact hprofile
  · rw [policy_expire]
    exact hpolicy
  · rw [policyRevision_expire]
  · rfl
  · exact hevaluation
  · intro k other hother
    rw [expire_get? hk, Option.map_eq_some_iff] at hother
    obtain ⟨old, hold, rfl⟩ := hother
    simp only [Bool.not_eq_true', any_eq_false, decide_eq_true_eq] at hattempt
    rw [Reservation.lapse_request]
    exact hattempt old (Dict.mem_values.mpr ⟨k, hold⟩)

structure Assesses (t : Tables) (request : AdmissionRequest) (clock : Clock) (found : Assessment)
    (rest : Clock) (t' : Tables) : Prop where
  expires : Expires t t'
  assessed : Assessed t' request found
  held : found.held = (t.held found.profile.account_id).filter fun item => !item.lapsed found.now
  unchanged : ∀ profile policy policy_revision held now,
    evaluate t' request profile policy policy_revision held now =
      evaluate t request profile policy policy_revision held now
  profiles : t'.profiles = t.profiles
  policies : t'.policies = t.policies
  sampled : Sampled clock found.now rest

section
variable (hk : Keyed t)
include hk

theorem Assesses.first (h : admissionEvaluation request clock t = .ok (found, rest, t')) :
    Assesses t request clock found rest t' := by
  obtain ⟨rfl, rfl, hassessed⟩ := admissionEvaluation_ok hk h
  exact {
    expires := .one
    assessed := hassessed
    held := hassessed.held.trans (held_expire hk)
    unchanged := fun _ _ _ _ _ => evaluate_expire
    profiles := expire_profiles
    policies := expire_policies
    sampled := .first }

section
variable (h : Assesses t request clock found rest t')
include h

theorem Assesses.again (hsampled : Sampled clock highest clock') (hfloor : found.now ≤ highest)
    (hagain : reevaluate request highest clock' t' = .ok (found', rest', t'')) :
    Assesses t request clock found' rest' t'' := by
  simp only [reevaluate, bind_ok, ensure_ok, pure_ok, Prod.exists, Prod.mk.injEq] at hagain
  obtain ⟨_, _, _, hfound, _, hle, rfl, rfl, rfl⟩ := hagain
  have hk' : Keyed t' := h.expires.keyed hk
  obtain ⟨rfl, rfl, hassessed⟩ := admissionEvaluation_ok hk' hfound
  simp only [decide_eq_true_eq] at hle
  have hknown := hassessed.known
  rw [expire_profiles, h.assessed.known, Option.some.injEq] at hknown
  refine {
    expires := h.expires.more
    assessed := hassessed
    held := ?_
    unchanged := fun _ _ _ _ _ => evaluate_expire.trans (h.unchanged _ _ _ _ _)
    profiles := expire_profiles.trans h.profiles
    policies := expire_policies.trans h.policies
    sampled := hsampled.next hle }
  rw [hassessed.held, held_expire hk', ← hknown, ← h.assessed.held, h.held, filter_filter]
  refine filter_congr fun item _ => ?_
  cases hlapsed : item.lapsed found.now with
  | true => simp [Reservation.lapsed_mono hlapsed (le_trans hfloor hle)]
  | false => simp

theorem rereadAfterReserve_ok (hread : rereadAfterReserve request w found rest t' = .ok (found', rest', t'')) :
    Assesses t request clock found' rest' t'' := by
  unfold rereadAfterReserve at hread
  split at hread
  · cases hread; exact h
  · split at hread
    · cases hread; exact h
    · simp only [bind_ok] at hread
      obtain ⟨_, -, hread⟩ := hread
      exact h.again hk h.sampled le_rfl hread

theorem rereadAfterFacts_ok (hread : rereadAfterFacts request w found rest t' = .ok (found', rest', t'')) :
    Assesses t request clock found' rest' t'' := by
  unfold rereadAfterFacts at hread
  split at hread
  · cases hread; exact h
  · split at hread
    · cases hread; exact h
    · simp only [bind_ok, ensure_ok, readClock_ok, Prod.exists, decide_eq_true_eq] at hread
      obtain ⟨captured_at, _, rfl, _, hle, _, -, hread⟩ := hread
      exact h.again hk (h.sampled.next hle) hle hread

end

theorem assess_ok (h : assess request w t = .ok (found, rest, t')) :
    Assesses t request w.clock found rest t' := by
  simp only [assess, bind_ok, Prod.exists] at h
  obtain ⟨first, clock₁, t₁, hfirst, second, clock₂, t₂, hsecond, hthird⟩ := h
  exact rereadAfterFacts_ok hk (rereadAfterReserve_ok hk (.first hk hfirst) hsecond) hthird

end

-- Concluding

variable {fence : TemporalFence}

theorem tick_ok : fence.tick clock = .ok (now, current, rest) ↔
    clock = some now :: rest ∧ fence.floor ≤ now ∧ current = fence.current now := by
  simp only [TemporalFence.tick, bind_ok, ensure_ok, pure_ok, readClock_ok, Prod.exists,
    Prod.mk.injEq, decide_eq_true_eq]
  constructor
  · rintro ⟨now, rest, hclock, _, hle, rfl, rfl, rfl⟩
    exact ⟨hclock, hle, rfl⟩
  · rintro ⟨hclock, hle, rfl⟩
    exact ⟨now, rest, hclock, (), hle, rfl, rfl, rfl⟩

/-- The assessment found nothing against the request, and from its floor on the fence
tells while its observations are timely. -/
structure Guards (found : Assessment) (fence : TemporalFence) : Prop where
  floor : found.now ≤ fence.floor
  current : ∀ now, fence.floor ≤ now →
    (fence.current now = true ↔ AllTimely found.evaluation.observations found.policy now)

theorem Guards.through (h : Guards found fence) : Guards found (fence.through now) := by
  refine ⟨le_trans h.floor (le_max_left _ _), fun later hle => ?_⟩
  have hfloor : fence.floor ≤ later := le_trans (le_max_left _ _) hle
  rw [← h.current later hfloor, TemporalFence.current, TemporalFence.current,
    decide_eq_true hle, decide_eq_true hfloor]
  rfl

/-- The assessment stands: what it found is its evaluation, with nothing against it. -/
structure Stands (t : Tables) (request : AdmissionRequest) (found : Assessment) : Prop where
  evaluated : evaluate t request found.profile found.policy found.policy_revision found.held
    found.now = .ok found.evaluation
  reasons : found.evaluation.reasons = []

theorem Guards.temporal {now floor : Rat} (h : Guards found fence)
    (hstands : Stands t request found) (hle : fence.floor ≤ now) (hfloor : floor ≤ now) :
    finalTemporalReasons request found.policy found.held found.evaluation.observations now floor
        = [] ↔ fence.current now = true := by
  rw [h.current now hle]
  exact finalTemporalReasons_later hstands.evaluated hstands.reasons hfloor

def Fenced (clock : Clock) (found : Assessment) : Stage TemporalFence → Clock → Prop
  | .rejected reasons, rest => reasons ≠ [] ∧ ∃ last, Sampled clock last rest
  | .standing fence, rest => found.evaluation.reasons = [] ∧ Guards found fence ∧
      Sampled clock fence.floor rest

theorem fenceDecision_ok {stage : Stage TemporalFence}
    (hevaluated : evaluate t request found.profile found.policy found.policy_revision found.held
      found.now = .ok found.evaluation) (hsampled : Sampled clock₀ found.now clock)
    (h : fenceDecision request found clock = .ok (stage, rest)) : Fenced clock₀ found stage rest := by
  unfold fenceDecision at h
  split at h
  case isTrue hreasons =>
    cases h
    exact ⟨hreasons, _, hsampled⟩
  case isFalse hreasons =>
    rw [ne_eq, not_not] at hreasons
    have hstands : Stands t request found := ⟨hevaluated, hreasons⟩
    obtain ⟨fence, hfence, hfloor, hcurrent⟩ := temporalFence_later hevaluated hreasons
    have hguards : Guards found fence := by
      refine ⟨hfloor.ge, fun now hle => ?_⟩
      rw [hcurrent now, and_iff_right (hfloor ▸ hle)]
    simp only [bind_ok, hfence, ok_bind, Prod.exists, tick_ok] at h
    obtain ⟨final_now, current, rest', ⟨rfl, hle, rfl⟩, h⟩ := h
    have hnow : found.now ≤ final_now := hfloor ▸ hle
    split at h
    · cases h
      refine ⟨hreasons, hguards.through, ?_⟩
      have hmax : (fence.through final_now).floor = final_now := max_eq_right hle
      rw [hmax]
      exact hsampled.next hnow
    case isFalse hpassed =>
      have htemporal := hguards.temporal hstands hle hnow
      split at h
      case h_1 hnil => exact absurd (htemporal.mp hnil) hpassed
      case h_2 hne =>
        cases h
        exact ⟨fun hnil => hpassed (htemporal.mp hnil), _, hsampled.next hnow⟩

/-- What comes of a request in the end: a reservation is written under a decision that
stands at the last reading of the clock, before the reservation's own end. -/
def Concluded (clock : Clock) (request : AdmissionRequest) (w : World) (found : Assessment) :
    Stage Reservation → Clock → Prop
  | .rejected reasons, rest => reasons ≠ [] ∧ ∃ last, Sampled clock last rest
  | .standing item, rest => found.evaluation.reasons = [] ∧ ∃ created_at last,
      item = newReservation request found w.identity created_at ∧
      Sampled clock last rest ∧ found.now ≤ last ∧ last < item.expires_at ∧
      AllTimely found.evaluation.observations found.policy last

theorem prepareReservation_ok {stage : Stage Reservation}
    (hstands : Stands t request found) (hguards : Guards found fence)
    (hsampled : Sampled clock₀ fence.floor clock)
    (h : prepareReservation request w found fence clock = .ok (stage, rest)) :
    Concluded clock₀ request w found stage rest := by
  simp only [prepareReservation, bind_ok, Prod.exists, tick_ok] at h
  obtain ⟨final_check, -, created_at, current, rest₁, ⟨rfl, hcreated, rfl⟩, h⟩ := h
  have hsampled := hsampled.next hcreated
  have htemporal := hguards.temporal hstands hcreated hcreated
  cases hcurrent : fence.current created_at with
  | false =>
    have hreasons : finalTemporalReasons request found.policy found.held
        found.evaluation.observations created_at fence.floor ≠ [] := by
      rw [ne_eq, htemporal, hcurrent]
      simp
    simp [hcurrent, if_pos hreasons] at h
    cases h
    exact ⟨hreasons, _, hsampled⟩
  | true =>
    have hguards' : Guards found (fence.through created_at) := hguards.through
    have hmax : (fence.through created_at).floor = created_at := max_eq_right hcreated
    simp only [hcurrent, if_true, ne_eq, not_true_eq_false, if_false, bind_ok, Prod.exists,
      tick_ok, Option.any_some] at h
    obtain ⟨_, -, last, _, rest₂, ⟨rfl, hle, rfl⟩, h⟩ := h
    have htemporal := hguards'.temporal hstands hle hle
    have hsampled := hsampled.next (hmax ▸ hle)
    cases hlast : (fence.through created_at).current last with
    | false =>
      have hreasons := mt htemporal.mp (by simp [hlast])
      simp [hlast, hreasons] at h
      cases h
      exact ⟨hreasons, _, hsampled⟩
    | true =>
      have htimely := (hguards'.current last hle).mp hlast
      simp only [hlast, Bool.not_true, Bool.false_eq_true, if_false] at h
      by_cases hexpires :
          last < (newReservation request found w.identity created_at).expires_at
      · simp only [decide_eq_true hexpires, Bool.not_true, Bool.false_eq_true, if_false,
          not_true_eq_false, need, ok_bind, pair_ok] at h
        obtain ⟨rfl, rfl⟩ := h
        have hfloor : found.now ≤ last := le_trans hguards'.floor hle
        exact ⟨hstands.reasons, created_at, last, rfl, hsampled, hfloor, hexpires, htimely⟩
      · simp only [decide_eq_false hexpires, Bool.not_false, if_true, reduceCtorEq,
          not_false_eq_true, pair_ok] at h
        obtain ⟨rfl, rfl⟩ := h
        exact ⟨by simp, _, hsampled⟩

theorem concludeAdmission_ok
    (hevaluated : evaluate t request found.profile found.policy found.policy_revision found.held
      found.now = .ok found.evaluation) (hsampled : Sampled clock₀ found.now clock)
    (h : concludeAdmission request w found clock = .ok (stage, rest)) :
    Concluded clock₀ request w found stage rest := by
  simp only [concludeAdmission, bind_ok, Prod.exists] at h
  obtain ⟨fenced, clock₁, hfenced, h⟩ := h
  have hok := fenceDecision_ok hevaluated hsampled hfenced
  cases fenced with
  | rejected reasons => cases h; exact hok
  | standing fence =>
    obtain ⟨hreasons, hguards, hsampled⟩ := hok
    exact prepareReservation_ok ⟨hevaluated, hreasons⟩ hguards hsampled h

/-- An admission that goes through assessed the request, and then rejected it or wrote
the one reservation it is about. -/
theorem admit_ok (hk : Keyed t) (h : admitAttempt request w t = .ok (decision, rest, t')) :
    ∃ found clock m, Assesses t request w.clock found clock m ∧
      ((∃ reasons last, reasons ≠ [] ∧ Sampled w.clock last rest ∧
          decision = decisionOf request found reasons none ∧ t' = m) ∨
        ∃ item, Concluded w.clock request w found (.standing item) rest ∧
          m.reservations.get? item.id = none ∧
          decision = decisionOf request found [] (some item.id) ∧
          t' = { m with reservations := m.reservations.put item.id item }) := by
  simp only [admitAttempt, bind_ok, Prod.exists] at h
  obtain ⟨found, clock, m, hassess, stage, rest', hstage, h⟩ := h
  have hassesses := assess_ok hk hassess
  have hok := concludeAdmission_ok hassesses.assessed.evaluated hassesses.sampled hstage
  refine ⟨found, clock, m, hassesses, ?_⟩
  cases stage with
  | rejected reasons =>
    cases h
    obtain ⟨hreasons, last, hsampled⟩ := hok
    exact .inl ⟨reasons, last, hreasons, hsampled, rfl, rfl⟩
  | standing item =>
    simp only [insertReservation, bind_ok, ensure_ok, pure_ok, Prod.mk.injEq, Bool.and_eq_true,
      Option.isNone_iff_eq_none] at h
    obtain ⟨_, ⟨_, ⟨hnew, -⟩, rfl⟩, rfl, rfl, rfl⟩ := h
    exact .inr ⟨item, hok, hnew, rfl, rfl⟩

end Karajan.Capacity
