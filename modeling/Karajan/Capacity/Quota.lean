import Karajan.Capacity.Lifecycle

/-!
# The shared quota

What is charged against a pool is the usage its observation does not cover and
what the held reservations may still use. An admission leaves room for its own
demand; no turn, expiry or receipt within its demand charges more.
-/

namespace Karajan.Capacity

open List Dict Check
variable {t t' m : Tables} {s s' : State} {pool : Pool}

-- Charges

/-- What is set aside of what the pool was observed with, apart from the margins. -/
def Tables.charged (t : Tables) (pool : Pool) (observed : Observation) : Nat :=
  uncoveredUsage (t.usageOf pool.account_id) pool observed +
    futureUsage (t.usageOf pool.account_id) pool.id (t.held pool.account_id)

theorem quantity_eq : t.quantity policy pool observed amount (t.held pool.account_id) =
    amount - t.charged pool observed - quantityOf policy.safety_margin pool.id := by
  simp only [Tables.quantity, Tables.charged]
  omega

def UsageRow.amount (row : UsageRow) (account_id pool_id : String) : Nat :=
  if row.account_id = account_id then quantityOf row.receipt.amounts pool_id else 0

def Tables.recorded (t : Tables) (account_id pool_id admission_id : String) : Nat := t.usage.total fun _ row =>
    if row.receipt.admission_id = admission_id then row.amount account_id pool_id else 0

def Tables.outstanding (t : Tables) (account_id pool_id : String) (item : Reservation) : Nat :=
  if item.account_id = account_id ∧ item.state.holds = true then
    quantityOf item.request.demand pool_id - t.recorded account_id pool_id item.id
  else 0

theorem recordedUsage_eq :
    recordedUsage (t.usageOf account_id) pool_id item = t.recorded account_id pool_id item.id := by
  rw [recordedUsage, Tables.usageOf, filter_filter, sum_filter_values, Tables.recorded]
  refine congrArg _ (funext fun _ => funext fun row => ?_)
  simp only [UsageRow.amount, Bool.and_eq_true, decide_eq_true_eq]
  split_ifs <;> simp_all

theorem futureUsage_eq : futureUsage (t.usageOf account_id) pool_id (t.held account_id) =
    t.reservations.total fun _ item => t.outstanding account_id pool_id item := by
  rw [futureUsage, Tables.held, Tables.reservationsOf, filter_filter, sum_filter_values]
  refine congrArg _ (funext fun _ => funext fun item => ?_)
  simp [Tables.outstanding, recordedUsage_eq, and_comm]

theorem uncoveredUsage_eq : uncoveredUsage (t.usageOf pool.account_id) pool observed = t.usage.total fun _ row =>
      if row.uncovered pool observed then row.amount pool.account_id pool.id else 0 := by
  rw [uncoveredUsage, Tables.usageOf, filter_filter, sum_filter_values]
  refine congrArg _ (funext fun _ => funext fun row => ?_)
  simp only [UsageRow.amount, Bool.and_eq_true, decide_eq_true_eq]
  split_ifs <;> simp_all

theorem charged_eq : t.charged pool observed = (t.usage.total fun _ row =>
      if row.uncovered pool observed then row.amount pool.account_id pool.id else 0) +
    t.reservations.total fun _ item => t.outstanding pool.account_id pool.id item := by
  rw [Tables.charged, uncoveredUsage_eq, futureUsage_eq]

-- Expiries and turns

theorem outstanding_usage (h : t'.usage = t.usage) :
    t'.outstanding account_id pool_id item = t.outstanding account_id pool_id item := by
  simp only [Tables.outstanding, Tables.recorded, h]

theorem outstanding_lapse : t.outstanding account_id pool_id (item.lapse account now) ≤
    t.outstanding account_id pool_id item := by
  unfold Reservation.lapse
  split
  · simp [Tables.outstanding, Reservation.expire, ReservationState.holds]
  · exact le_rfl

theorem charged_expire (hk : Keyed t) :
    (expire account now t).charged pool observed ≤ t.charged pool observed := by
  rw [charged_eq, charged_eq, expire_usage, expire_reservations hk, total_mapValues]
  refine Nat.add_le_add_left (total_mono fun _ item _ => ?_) _
  rw [outstanding_usage expire_usage]
  exact outstanding_lapse

theorem Turn.outstanding (h : Turn t item item' event) :
    t.outstanding account_id pool_id item' ≤ t.outstanding account_id pool_id item := by
  obtain ⟨hid, hrequest, haccount⟩ := h.same
  simp only [Tables.outstanding, hid, hrequest, haccount, h.next.holds, and_true]
  split_ifs <;> simp_all

theorem charged_turn (hitem : t.reservations.get? item.id = some item) (hturn : Turn t item item' event) :
    (save item' event t).charged pool observed ≤ t.charged pool observed := by
  have hput := total_put (v := item') (f := fun _ item =>
    t.outstanding pool.account_id pool.id item) hitem
  rw [charged_eq, charged_eq]
  change (t.usage.total _) + ((t.reservations.put item'.id item').total fun _ item =>
    t.outstanding pool.account_id pool.id item) ≤ _
  rw [hturn.same.1]
  have hle : t.outstanding pool.account_id pool.id item' ≤
      t.outstanding pool.account_id pool.id item := hturn.outstanding
  omega

-- Usage

/-- The receipt is of a held reservation and, with what was recorded of it before, within
its demand. -/
def Within (t : Tables) (row : UsageRow) (pool : Pool) : Prop :=
  ∃ item, t.reservations.get? row.receipt.admission_id = some item ∧ item.state.holds = true ∧
    t.recorded pool.account_id pool.id item.id + quantityOf row.receipt.amounts pool.id ≤
      quantityOf item.request.demand pool.id

theorem recorded_usage (hnew : t.usage.get? row.receipt.id = none) :
    ({ t with usage := t.usage.put row.receipt.id row } : Tables).recorded account_id pool_id
        admission_id =
      t.recorded account_id pool_id admission_id +
        if row.receipt.admission_id = admission_id then row.amount account_id pool_id else 0 :=
  total_put_new hnew

theorem charged_usage (hk : Keyed t) (huses : Uses t item row)
    (hwithin : (row.receipt.amounts.get? pool.id).isSome = true → Within t row pool) :
    ({ t with usage := t.usage.put row.receipt.id row } : Tables).charged pool observed ≤
      t.charged pool observed := by
  let amount := row.amount pool.account_id pool.id
  let after : Tables := { t with usage := t.usage.put row.receipt.id row }
  have huncovered : (after.usage.total fun _ row =>
      if row.uncovered pool observed then row.amount pool.account_id pool.id else 0) ≤
      (t.usage.total fun _ row =>
        if row.uncovered pool observed then row.amount pool.account_id pool.id else 0) + amount := by
    rw [show after.usage = t.usage.put row.receipt.id row from rfl, total_put_new huses.identity]
    split <;> simp [amount]
  have hamount : (t.reservations.total fun k _ =>
      if k = row.receipt.admission_id then amount else 0) = amount := by
    have hsingle := total_single (d := t.reservations) (k := row.receipt.admission_id)
      (f := fun _ => amount)
    rw [hsingle, huses.reservation]
    rfl
  have hheld : (t.reservations.total fun _ item =>
      after.outstanding pool.account_id pool.id item) + amount ≤
      t.reservations.total fun _ item => t.outstanding pool.account_id pool.id item := by
    rw [← hamount, ← total_add]
    refine total_mono fun k other hother => ?_
    have hid := hk k other hother
    have hrecorded : after.recorded pool.account_id pool.id other.id =
        t.recorded pool.account_id pool.id other.id +
          if row.receipt.admission_id = other.id then amount else 0 := recorded_usage huses.identity
    by_cases hnone : k = row.receipt.admission_id ∧ amount ≠ 0
    · obtain ⟨rfl, hpos⟩ := hnone
      cases huses.reservation.symm.trans hother
      have haccount : row.account_id = pool.account_id := by
        by_contra hne
        exact hpos (if_neg hne)
      have hquantity : amount = quantityOf row.receipt.amounts pool.id := if_pos haccount
      obtain ⟨_, hitem, hholds, hle⟩ := hwithin (by
        by_contra hno
        rw [Bool.not_eq_true, Option.isSome_eq_false_iff, Option.isNone_iff_eq_none] at hno
        exact hpos (by rw [hquantity, quantityOf, hno]; rfl))
      cases huses.reservation.symm.trans hitem
      rw [if_pos hid.symm] at hrecorded
      simp only [Tables.outstanding, ← huses.account, haccount, hholds, and_self, if_true, hrecorded]
      omega
    · have hsame : after.recorded pool.account_id pool.id other.id =
          t.recorded pool.account_id pool.id other.id := by
        rw [hrecorded, hid]
        split_ifs with hkey
        · have hzero : amount = 0 := by
            by_contra hpos
            exact hnone ⟨hkey.symm, hpos⟩
          rw [hzero, Nat.add_zero]
        · rfl
      have hzero : (if k = row.receipt.admission_id then amount else 0) = 0 := by
        split_ifs with hkey
        · by_contra hpos
          exact hnone ⟨hkey, hpos⟩
        · rfl
      rw [hzero, Nat.add_zero, Tables.outstanding, hsame]
      rfl
  have hafter : after.charged pool observed = (after.usage.total fun _ row =>
      if row.uncovered pool observed then row.amount pool.account_id pool.id else 0) +
      t.reservations.total fun _ item => after.outstanding pool.account_id pool.id item := charged_eq
  change after.charged pool observed ≤ _
  rw [hafter, charged_eq]
  omega

-- Admissions

theorem held_put_new (hnew : t.reservations.get? item.id = none)
    (hstate : item.state.holds = true) (haccount : item.account_id = account) :
    ({ t with reservations := t.reservations.put item.id item } : Tables).held account =
      t.held account ++ [item] := by
  simp [Tables.held, Tables.reservationsOf, values, entries_put_new hnew, hstate, haccount]

theorem held_put_other (hnew : t.reservations.get? item.id = none) (haccount : item.account_id ≠ account) :
    ({ t with reservations := t.reservations.put item.id item } : Tables).held account =
      t.held account := by
  simp [Tables.held, Tables.reservationsOf, values, entries_put_new hnew, haccount]

theorem futureUsage_append : futureUsage all_usage pool_id (held ++ [item]) = futureUsage all_usage pool_id held +
      (quantityOf item.request.demand pool_id - recordedUsage all_usage pool_id item) := by
  simp [futureUsage]

/-- A decision with nothing against it has a slot and room at each pool that is known
as a number. -/
theorem Reserves.room (h : Reserves t item profile policy now evaluation) :
    ((t.held profile.account_id).length : Int) + 1 ≤
      policy.max_active_attempts - (if item.request.lead then 0 else policy.lead_reserved_slots) ∧
    ∀ pool, pool.id ∈ profile.pool_ids → t.pools.get? pool.id = some pool →
      ∀ observed amount, t.observation pool.id = some observed → observed.numericRemaining = some amount →
        (quantityOf item.request.demand pool.id : Int) ≤
          t.quantityFor item.request policy pool observed amount (t.held profile.account_id) := by
  obtain ⟨pools, hclear, -⟩ := evaluate_clear h.evaluated h.reasons
  constructor
  · have haccount := hclear.account
    simp only [accountReasons, append_eq_nil_iff, reasonIf_eq_nil, decide_eq_false_iff_not] at haccount
    omega
  · intro pool hmem hpool observed amount hobserved hamount
    obtain ⟨pool', hpool', hin⟩ := each_ok hclear.known pool.id (mem_insertionSort _ |>.mpr hmem)
    cases hpool.symm.trans (pool_ok.mp hpool')
    obtain ⟨-, observed', hobserved', hthen⟩ := evaluatePool_clear.mp (hclear.pool pool hin)
    cases hobserved.symm.trans hobserved'
    obtain ⟨-, -, -, hquota⟩ := observedPool_clear.mp hthen
    rw [hamount] at hquota
    exact hquota

def Tables.reserve (t : Tables) (item : Reservation) : Tables :=
  { t with reservations := t.reservations.put item.id item }

theorem Reserves.left (h : Reserves t item profile policy now evaluation) (hob : Accounted t)
    (hmem : pool.id ∈ profile.pool_ids) (hpool : t.pools.get? pool.id = some pool)
    (hobserved : t.observation pool.id = some observed) (hamount : observed.numericRemaining = some amount) :
    pool.account_id = profile.account_id ∧
      0 ≤ (t.reserve item).quantityFor item.request policy pool observed amount
        ((t.reserve item).held pool.account_id) := by
  obtain ⟨pool', hpool', haccount⟩ := hob.profiles _ profile h.known pool.id hmem
  cases hpool.symm.trans hpool'
  refine ⟨haccount, ?_⟩
  have hroom := h.room.2 pool hmem hpool observed amount hobserved hamount
  have hheld : (t.reserve item).held pool.account_id = t.held pool.account_id ++ [item] :=
    held_put_new h.identity (by rw [h.state]; rfl) (by rw [h.account, haccount])
  have husage : (t.reserve item).usageOf pool.account_id = t.usageOf pool.account_id := rfl
  rw [← haccount] at hroom
  simp only [Tables.quantityFor, Tables.quantity, hheld, husage, futureUsage_append] at hroom ⊢
  omega

theorem Reserves.charged_other (h : Reserves t item profile policy now evaluation)
    (hmem : pool.id ∉ profile.pool_ids) : (t.reserve item).charged pool observed ≤ t.charged pool observed := by
  have hnone : item.request.demand.get? pool.id = none := by
    rw [get?_eq_none, h.demand]
    exact hmem
  have hdemand : quantityOf item.request.demand pool.id = 0 := by
    rw [quantityOf, hnone]
    rfl
  have husage : (t.reserve item).usageOf pool.account_id = t.usageOf pool.account_id := rfl
  have hfuture : futureUsage (t.usageOf pool.account_id) pool.id
      ((t.reserve item).held pool.account_id) =
      futureUsage (t.usageOf pool.account_id) pool.id (t.held pool.account_id) := by
    by_cases haccount : item.account_id = pool.account_id
    · have hheld : (t.reserve item).held pool.account_id = t.held pool.account_id ++ [item] :=
        held_put_new h.identity (by rw [h.state]; rfl) haccount
      rw [hheld, futureUsage_append, hdemand, Nat.zero_sub, Nat.add_zero]
    · have hheld : (t.reserve item).held pool.account_id = t.held pool.account_id :=
        held_put_other h.identity haccount
      rw [hheld]
  rw [Tables.charged, Tables.charged, husage, hfuture]

-- Whole runs

/-- The pool is not charged more than it was observed with, whatever its numbers are. -/
def Sufficient (t : Tables) (pool : Pool) : Prop :=
  ∀ policy observed amount, t.policy pool.account_id = some policy →
    t.observation pool.id = some observed → observed.numericRemaining = some amount →
    0 ≤ t.quantity policy pool observed amount (t.held pool.account_id)

/-- The policy and the observation of the pool stay, and receipts that draw on it are
within the demand of reservations that are still held. -/
def Quiet (L : Library) (pool : Pool) (s : State) (a : Action) : Prop :=
  (s.step L a).tables.policy pool.account_id = s.tables.policy pool.account_id ∧
  (s.step L a).tables.observation pool.id = s.tables.observation pool.id ∧
  ∀ id row, (s.step L a).tables.usage.get? id = some row → s.tables.usage.get? id = none →
    (row.receipt.amounts.get? pool.id).isSome = true → Within s.tables row pool

theorem Sufficient.charged (h : Sufficient t pool)
    (hpolicy : t'.policy pool.account_id = t.policy pool.account_id)
    (hobservation : t'.observation pool.id = t.observation pool.id)
    (hcharged : ∀ observed, t'.charged pool observed ≤ t.charged pool observed) : Sufficient t' pool := by
  intro policy observed amount hp ho hamount
  have hsufficient := h policy observed amount (hpolicy ▸ hp) (hobservation ▸ ho) hamount
  have hle := hcharged observed
  rw [quantity_eq] at hsufficient ⊢
  omega

theorem expire_observation : (expire account now t).observation pool_id = t.observation pool_id := by
  rw [Tables.observation, Tables.appliedTo, expire_observations]
  rfl

theorem Expires.sufficient (hexpires : Expires t t') (hk : Keyed t) (h : Sufficient t pool) :
    Sufficient t' pool := by
  have hkept := hexpires.keeps (I := fun t => Keyed t ∧ Sufficient t pool) ?_ ⟨hk, h⟩
  · exact hkept.2
  rintro t account now ⟨hk, h⟩
  exact ⟨expire_keyed hk, h.charged policy_expire expire_observation fun _ => charged_expire hk⟩

theorem Expires.same (hexpires : Expires t t') : t'.policies = t.policies ∧
    t'.observations = t.observations ∧ t'.pools = t.pools ∧ t'.usage = t.usage := by
  refine hexpires.keeps (I := fun t' => t'.policies = t.policies ∧
    t'.observations = t.observations ∧ t'.pools = t.pools ∧ t'.usage = t.usage) ?_
    ⟨rfl, rfl, rfl, rfl⟩
  rintro t' account now ⟨hpolicies, hobservations, hpools, husage⟩
  exact ⟨expire_policies.trans hpolicies, expire_observations.trans hobservations,
    expire_pools.trans hpools, expire_usage.trans husage⟩

theorem Edit.sufficient (hedit : Edit t t') (hk : Keyed t) (hob : Accounted t)
    (hpool : t.pools.get? pool.id = some pool) (hpolicy : t'.policy pool.account_id = t.policy pool.account_id)
    (hobservation : t'.observation pool.id = t.observation pool.id)
    (hwithin : ∀ item row, Uses t item row → t' = { t with usage := t.usage.put row.receipt.id row } →
      (row.receipt.amounts.get? pool.id).isSome = true → Within t row pool)
    (h : Sufficient t pool) : Sufficient t' pool := by
  cases hedit with
  | turn hitem hturn =>
    exact h.charged hpolicy hobservation fun _ => charged_turn hitem hturn
  | usage huses =>
    exact h.charged hpolicy hobservation fun _ => charged_usage hk huses (hwithin _ _ huses rfl)
  | @reservation item profile current now evaluation hreserves =>
    by_cases hmem : pool.id ∈ profile.pool_ids
    · intro policy observed amount hp ho hamount
      obtain ⟨haccount, hleft⟩ := hreserves.left hob hmem hpool ho hamount
      have hcurrent := hreserves.current
      rw [← haccount] at hcurrent
      cases hcurrent.symm.trans hp
      exact le_trans hleft (sub_le_self _ (Int.natCast_nonneg _))
    · exact h.charged hpolicy hobservation fun _ => hreserves.charged_other hmem
  | _ => exact h.charged hpolicy hobservation fun _ => le_rfl

theorem Edit.pools (hedit : Edit t t') (h : t.pools.get? k = some pool) : t'.pools.get? k = some pool := by
  cases hedit with
  | pool hnew => exact Dict.get?_put_new hnew h
  | _ => exact h

theorem step_sufficient (hk : Keyed s.tables) (hob : Accounted s.tables) (a : Action)
    (hquiet : Quiet L pool s a) (hpool : s.tables.pools.get? pool.id = some pool) (h : Sufficient s.tables pool) :
    (s.step L a).tables.pools.get? pool.id = some pool ∧
      Sufficient (s.step L a).tables pool := by
  obtain ⟨hpolicy, hobservation, hwithin⟩ := hquiet
  obtain ⟨m, hexpires, hedit⟩ := step_ok (L := L) hk a
  obtain ⟨hpolicies, hobservations, hpools, husage⟩ := hexpires.same
  have hmpool : m.pools.get? pool.id = some pool := by rw [hpools]; exact hpool
  refine ⟨hedit.pools hmpool, ?_⟩
  refine hedit.sufficient (hexpires.keyed hk)
    (hexpires.keeps (I := fun t => Keyed t ∧ Accounted t)
      (fun _ _ _ ht => ⟨expire_keyed ht.1, ht.2.expire ht.1⟩) ⟨hk, hob⟩).2
    hmpool ?_ ?_ ?_ (hexpires.sufficient hk h)
  · rw [hpolicy, Tables.policy, Tables.policy, hpolicies]
  · rw [hobservation, Tables.observation, Tables.observation, Tables.appliedTo, Tables.appliedTo, hobservations]
  · intro item row huses heq hamount
    have hnew : s.tables.usage.get? row.receipt.id = none := by rw [← husage]; exact huses.identity
    have hrow : (s.step L a).tables.usage.get? row.receipt.id = some row := by
      rw [heq]
      exact get?_put_self
    obtain ⟨held, hheld, hholds, hle⟩ := hwithin _ row hrow hnew hamount
    -- What was held before the step and is used in it did not expire in between.
    cases expires_lapses hexpires hk hheld with
    | kept hitem _ =>
      refine ⟨held, hitem, hholds, ?_⟩
      rw [Tables.recorded, husage]
      exact hle
    | expired _ hitem _ _ =>
      cases huses.reservation.symm.trans hitem
      obtain hstate | hstate | hstate := huses.state <;> cases hstate

theorem path_sufficient (h : (system L).Reach System.free s)
    (hp : (system L).Path (Quiet L pool) s s') (hpool : s.tables.pools.get? pool.id = some pool)
    (hs : Sufficient s.tables pool) : Sufficient s'.tables pool := by
  have hkept := hp.keeps (I := fun s => (system L).Reach System.free s ∧
    s.tables.pools.get? pool.id = some pool ∧ Sufficient s.tables pool) ?_ ⟨h, hpool, hs⟩
  · exact hkept.2.2
  rintro s a ⟨h, hpool, hs⟩ hquiet
  exact ⟨h.step trivial, step_sufficient (reach_keyed h) (reach_accounted h) a hquiet hpool hs⟩

theorem path_same (hp : (system L).Path (Quiet L pool) s s') :
    s'.tables.policy pool.account_id = s.tables.policy pool.account_id ∧
      s'.tables.observation pool.id = s.tables.observation pool.id := by
  refine hp.keeps (I := fun s' => s'.tables.policy pool.account_id = s.tables.policy pool.account_id ∧
    s'.tables.observation pool.id = s.tables.observation pool.id) ?_ ⟨rfl, rfl⟩
  rintro s' a ⟨hpolicy, hobservation⟩ ⟨hpolicy', hobservation', -⟩
  exact ⟨hpolicy'.trans hpolicy, hobservation'.trans hobservation⟩

theorem command_reserves {a : Action} (hk : Keyed s.tables) (hob : Accounted s.tables)
    (ha : a.command = .admitAttempt request) (hnew : s.commands.get? a.command_key = none)
    (hcommand : s.command L a.command_key a.command a.world = .ok (.decided decision, s'))
    (hadmitted : decision.reason_codes = []) : ∃ m item profile policy now evaluation, Accounted m ∧
      Reserves m item profile policy now evaluation ∧ item.request = request ∧
      s'.tables = m.reserve item := by
  obtain ⟨-, hanswered⟩ | ⟨-, tables, happly, rfl⟩ := command_ok hcommand
  · rw [hnew] at hanswered
    cases hanswered
  rw [ha] at happly
  obtain ⟨⟨decision', rest, t'⟩, hadmit, heq⟩ := map_ok.mp happly
  cases heq
  obtain ⟨found, clock, m, hassesses, hrejected | ⟨item, hconcluded, hid, rfl, rfl⟩⟩ := admit_ok hk hadmit
  · obtain ⟨reasons, _, hreasons, -, rfl, -⟩ := hrejected
    exact absurd hadmitted hreasons
  · have hm := hassesses.expires.keeps (I := fun t => Keyed t ∧ Accounted t)
      (fun _ _ _ ht => ⟨expire_keyed ht.1, ht.2.expire ht.1⟩) ⟨hk, hob⟩
    have hreserves := hconcluded.reserves hassesses.assessed hid
    obtain ⟨-, created_at, _, rfl, -⟩ := hconcluded
    exact ⟨m, _, _, _, _, _, hm.2, hreserves, rfl, rfl⟩

/-- Shared quota is not oversubscribed: right after an admission, the held reservations fit the
slots of the policy and every pool that is known as a number has enough left for all that
is charged to it; and it keeps enough as long as its observation and the policy stay and
usage stays within what was demanded. -/
theorem quota_kept {a : Action} {request : AdmissionRequest} {decision : Decision}
    (h : (system L).Reach System.free s) (ha : a.command = .admitAttempt request)
    (hnew : s.commands.get? a.command_key = none)
    (hcommand : s.command L a.command_key a.command a.world = .ok (.decided decision, s'))
    (hadmitted : decision.reason_codes = []) : ∃ profile policy,
      s'.tables.profiles.get? (request.profile_id, request.profile_revision) = some profile ∧
      s'.tables.policy profile.account_id = some policy ∧
      ((s'.tables.held profile.account_id).length : Int) ≤
        policy.max_active_attempts - (if request.lead then 0 else policy.lead_reserved_slots) ∧
      ∀ pool observed amount, pool.id ∈ request.demand.keys →
        s'.tables.pools.get? pool.id = some pool → s'.tables.observation pool.id = some observed →
        observed.numericRemaining = some amount → 0 ≤ s'.tables.quantityFor request policy pool observed amount
          (s'.tables.held pool.account_id) ∧
        ∀ s'', (system L).Path (Quiet L pool) s' s'' →
          0 ≤ s''.tables.quantity policy pool observed amount (s''.tables.held pool.account_id) := by
  have hk := reach_keyed h
  have hob := reach_accounted h
  obtain ⟨m, item, profile, policy, now, evaluation, hm, hreserves, rfl, htables⟩ :=
    command_reserves hk hob ha hnew hcommand hadmitted
  have hreach : (system L).Reach System.free s' := by
    have hstep : s.step L a = s' := by simp [State.step, hcommand]
    exact hstep ▸ h.step (a := a) trivial
  rw [htables]
  refine ⟨profile, policy, hreserves.known, hreserves.current, ?_, ?_⟩
  · have hheld : (m.reserve item).held profile.account_id = m.held profile.account_id ++ [item] :=
      held_put_new hreserves.identity (by rw [hreserves.state]; rfl) hreserves.account
    rw [hheld]
    simpa using hreserves.room.1
  · intro pool observed amount hmem hpool hobserved hamount
    have hdrawn := (hreserves.demand pool.id).mp hmem
    obtain ⟨haccount, hleft⟩ := hreserves.left hm hdrawn hpool hobserved hamount
    refine ⟨hleft, fun s'' hp => ?_⟩
    have hcurrent : (m.reserve item).policy pool.account_id = some policy := by
      rw [haccount]
      exact hreserves.current
    have hstart : Sufficient s'.tables pool := by
      rw [htables]
      intro policy' observed' amount' hp' ho' hamount'
      cases hcurrent.symm.trans hp'
      cases hobserved.symm.trans ho'
      cases hamount.symm.trans hamount'
      exact le_trans hleft (sub_le_self _ (Int.natCast_nonneg _))
    obtain ⟨hpolicy, hobservation⟩ := path_same hp
    refine path_sufficient hreach hp (htables ▸ hpool) hstart policy observed amount ?_ ?_ hamount
    · rw [hpolicy, htables, hcurrent]
    · rw [hobservation, htables]
      exact hobserved

section Sample

/-- The lead takes the last slot. -/
theorem quota_kept_lead : ∃ (decision : Decision) (s' : State) (profile : Profile) (policy : Policy),
      sampleState.command sampleLibrary leadAction.command_key leadAction.command
        leadAction.world = .ok (.decided decision, s') ∧
      s'.tables.policy profile.account_id = some policy ∧
      ((s'.tables.held profile.account_id).length : Int) ≤
        policy.max_active_attempts - (if leadRequest.lead then 0 else policy.lead_reserved_slots) := by
  have hdecided : ((sampleState.command sampleLibrary leadAction.command_key leadAction.command
      leadAction.world).toOption.map fun r => r.1.decision?.map (·.reason_codes.isEmpty)) =
        some (some true) := by decide +kernel
  obtain ⟨decision, s', hcommand, hclear⟩ := decided_of hdecided
  have hnew : (sampleState.commands.get? leadAction.command_key).isNone = true := by
    decide +kernel
  obtain ⟨profile, policy, -, hpolicy, hslots, -⟩ := quota_kept sampleState_reach
    (rfl : leadAction.command = .admitAttempt leadRequest) (Option.isNone_iff_eq_none.mp hnew) hcommand
    (List.isEmpty_iff.mp hclear)
  exact ⟨decision, s', profile, policy, hcommand, hpolicy, hslots⟩

end Sample

end Karajan.Capacity
