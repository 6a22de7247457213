import Karajan.GoJournal.Journal

/-!
# One send for a call

Whatever the clock says and whichever answers are lost, a call is sent once,
a grant's calls are numbered from one to at most its bound, and what was
revoked, expired or recorded stays so. A grant is authenticated by every form
of the binding it was made with.
-/

namespace Karajan.GoJournal

open List Dict Check
variable {db db' : Db}

-- What an operation does

theorem createGrant_ok (h : createGrant L form grant_id reading capability db = .ok (db', created)) :
    ∃ value, identifierText grant_id = true ∧ L.binding form = some value ∧
      ((∃ old, db.grants.get? grant_id = some old ∧ old.binding = value.sorted ∧ db' = db ∧
          created = ⟨grant_id, value, none⟩) ∨
        (db.grants.get? grant_id = none ∧ ∃ now,
          db' = { db with grants := db.grants.put grant_id (newGrant L value capability now) } ∧
          created = ⟨grant_id, value, some capability.text⟩)) := by
  simp only [createGrant, readBinding, bind_ok, ensure_ok, need_ok] at h
  obtain ⟨-, hid, value, hvalue, h⟩ := h
  refine ⟨value, hid, hvalue, ?_⟩
  split at h
  case h_1 old hold =>
    simp only [bind_ok, ensure_ok, decide_eq_true_eq, pair_ok] at h
    obtain ⟨-, hsame, rfl, rfl⟩ := h
    exact .inl ⟨old, hold, hsame, rfl, rfl⟩
  case h_2 hnone =>
    simp only [bind_ok, pair_ok] at h
    obtain ⟨now, -, expires_at, -, -, -, rfl, rfl⟩ := h
    exact .inr ⟨hnone, now, rfl, rfl⟩

theorem revokeGrant_ok (h : revokeGrant grant_id reading db = .ok (db', revoked_at)) :
    ∃ row, db.grants.get? grant_id = some row ∧
      ((row.revoked_at.isSome ∧ db' = db) ∨ (row.revoked_at = none ∧ ∃ now,
        db' = { db with grants := db.grants.put grant_id { row with revoked_at := some now } })) := by
  simp only [revokeGrant, bind_ok, need_ok] at h
  obtain ⟨-, -, row, hrow, h⟩ := h
  refine ⟨row, hrow, ?_⟩
  split at h
  case h_1 hrevoked =>
    simp only [pair_ok] at h
    exact .inl ⟨by simp [hrevoked], h.1.symm⟩
  case h_2 hnone =>
    simp only [bind_ok, pair_ok] at h
    obtain ⟨now, -, rfl, -⟩ := h
    exact .inr ⟨hnone, now, rfl⟩

theorem readContext_ok (h : readContext request_context = .ok context) :
    context = request_context.bind measurement := by
  cases request_context with
  | none => cases h; rfl
  | some form =>
    simp only [readContext, bind_ok, need_ok, pure_ok] at h
    obtain ⟨value, hvalue, rfl⟩ := h
    exact hvalue.symm

theorem authenticate_ok (h : authenticate L row value capability = .ok u) : row.binding = value.sorted := by
  simp only [authenticate, bind_ok, ensure_ok, decide_eq_true_eq] at h
  obtain ⟨-, -, -, -, hsame⟩ := h
  exact hsame

structure Sent (db : Db) (grant_id call_id : String) (context : Option Json) (row : GrantRow)
    (receipt : Receipt) : Prop where
  new : db.calls.get? (grant_id, call_id) = none
  unrevoked : row.revoked_at = none
  unexpired : db.expired.contains grant_id = false
  grant : receipt.grant_id = grant_id
  call : receipt.call_id = call_id
  sequence : receipt.sequence = (db.callsOf grant_id).length + 1
  context : receipt.request_context = context
  bounded : ∃ n, maxRequests row.binding = some n ∧ ((db.callsOf grant_id).length : Int) < n
  early : ∃ expires_at, expiresAt row.binding = some expires_at ∧ receipt.send_intent_at < expires_at

theorem beginCall_ok
    (h : beginCall L grant_id call_id capability form request_context reading db = .ok (db', begun)) :
    ∃ row, db.grants.get? grant_id = some row ∧
      ((∃ old, db.calls.get? (grant_id, call_id) = some old ∧
          old.request_context = request_context.bind measurement ∧ db' = db ∧ begun = .replayed old) ∨
        (∃ now, db' = { db with expired := db.expired.putNew grant_id now } ∧ begun = .expired) ∨
        ∃ receipt, Sent db grant_id call_id (request_context.bind measurement) row receipt ∧
          db' = { db with calls := db.calls.put (grant_id, call_id) receipt } ∧ begun = .sent receipt) := by
  simp only [beginCall, readBinding, bind_ok, ensure_ok, need_ok] at h
  obtain ⟨-, -, value, hvalue, context, hcontext, row, hrow, _, hauthentic, h⟩ := h
  obtain rfl := readContext_ok hcontext
  have hbinding := authenticate_ok hauthentic
  refine ⟨row, hrow, ?_⟩
  split at h
  case h_1 old hold =>
    simp only [bind_ok, ensure_ok, decide_eq_true_eq, pair_ok] at h
    obtain ⟨-, hsame, rfl, rfl⟩ := h
    exact .inl ⟨old, hold, hsame, rfl, rfl⟩
  case h_2 hnew =>
    simp only [bind_ok, ensure_ok, need_ok] at h
    obtain ⟨-, -, now, -, -, hunrevoked, expires_at, hexpires, h⟩ := h
    split at h
    · simp only [pair_ok] at h
      obtain ⟨rfl, rfl⟩ := h
      exact .inr (.inl ⟨now, rfl, rfl⟩)
    case isFalse hearly =>
      simp only [bind_ok, ensure_ok, need_ok, decide_eq_true_eq, pair_ok] at h
      obtain ⟨n, hn, -, hcount, rfl, rfl⟩ := h
      simp only [Bool.or_eq_true, decide_eq_true_eq, not_or, Bool.not_eq_true, not_le] at hearly
      refine .inr (.inr ⟨_, ?_, rfl, rfl⟩)
      constructor
      case new => exact hnew
      case unrevoked => simpa using hunrevoked
      case unexpired => exact hearly.1
      case bounded => exact ⟨n, by rw [hbinding, maxRequests_sorted, hn], hcount⟩
      case early => exact ⟨expires_at, by rw [hbinding, expiresAt_sorted, hexpires], hearly.2⟩
      all_goals rfl

theorem completeCall_ok
    (h : completeCall L grant_id call_id capability form result reading db = .ok (db', receipt)) :
    ∃ old, db.calls.get? (grant_id, call_id) = some old ∧
      (db' = db ∨ old.outcome = none ∧ ∃ value now,
        db' = { db with calls := db.calls.put (grant_id, call_id) (old.complete value now) }) := by
  simp only [completeCall, bind_ok, need_ok] at h
  obtain ⟨-, -, -, -, value, -, row, -, -, -, old, hold, h⟩ := h
  refine ⟨old, hold, ?_⟩
  split at h
  · simp only [bind_ok, pair_ok] at h
    obtain ⟨-, -, rfl, -⟩ := h
    exact .inl rfl
  case h_2 hnone =>
    simp only [bind_ok, pair_ok] at h
    obtain ⟨now, -, rfl, -⟩ := h
    exact .inr ⟨hnone, value, now, rfl⟩

-- The calls of a grant

theorem callsOf_put_new (receipt : Receipt) (h : db.calls.get? (grant_id, call_id) = none) (g : String) :
    ({ db with calls := db.calls.put (grant_id, call_id) receipt } : Db).callsOf g =
      db.callsOf g ++ if grant_id = g then [receipt] else [] := by
  simp only [Db.callsOf, entries_put_new h, filter_append, map_append]
  by_cases hg : grant_id = g <;> simp [hg]

theorem callsOf_put_old (receipt : Receipt) (h : db.calls.get? (grant_id, call_id) = some old)
    (hsame : receipt.sequence = old.sequence) (g : String) :
    (({ db with calls := db.calls.put (grant_id, call_id) receipt } : Db).callsOf g).map (·.sequence) =
      (db.callsOf g).map (·.sequence) := by
  have hput : db.calls.put (grant_id, call_id) receipt = db.calls.modify (grant_id, call_id) fun _ => receipt :=
    put_eq_modify (f := fun _ => receipt) h
  simp only [Db.callsOf, hput, Dict.modify, Dict.mapValues, filter_map, map_map]
  refine map_congr_left fun e he => ?_
  have hmem := (List.mem_filter.mp he).1
  by_cases hk : e.1 = (grant_id, call_id)
  · have hold : e.2 = old := by
      have hget := get?_eq_some.mpr (hk ▸ hmem : ((grant_id, call_id), e.2) ∈ db.calls.entries)
      exact Option.some.inj (hget.symm.trans h)
    simp [hk, hsame, hold]
  · simp [hk]

theorem mem_callsOf (h : receipt ∈ db.callsOf grant_id) :
    ∃ call_id, db.calls.get? (grant_id, call_id) = some receipt := by
  simp only [Db.callsOf, List.mem_map, List.mem_filter, decide_eq_true_eq] at h
  obtain ⟨⟨⟨g, call_id⟩, r⟩, ⟨hmem, rfl⟩, rfl⟩ := h
  exact ⟨call_id, Dict.get?_eq_some.mpr hmem⟩

-- The history

namespace Event

def granted? : Event → Option String
  | .granted grant_id .. => some grant_id
  | _ => none

def sent? : Event → Option (String × String)
  | .sent _ receipt => some (receipt.grant_id, receipt.call_id)
  | _ => none

def revoked? : Event → Option String
  | .revoked grant_id => some grant_id
  | _ => none

def expired? : Event → Option String
  | .expired grant_id => some grant_id
  | _ => none

/-- The call that an answer is about, with the context it was asked in. -/
def asked? : Event → Option ((String × String) × Option Json)
  | .sent context receipt => some ((receipt.grant_id, receipt.call_id), context)
  | .replayed context receipt => some ((receipt.grant_id, receipt.call_id), context)
  | _ => none

end Event

open Event

def Allowed (before : List Event) : Event → Prop
  | .sent _ receipt =>
    (receipt.grant_id, receipt.call_id) ∉ before.filterMap sent? ∧
      receipt.grant_id ∉ before.filterMap revoked? ∧
      receipt.grant_id ∉ before.filterMap expired? ∧
      ∃ capability binding expires_at, granted receipt.grant_id capability binding ∈ before ∧
        expiresAt binding = some expires_at ∧ receipt.send_intent_at < expires_at
  | _ => True

-- The invariant

structure JournalInv (L : Library) (db : Db) (log : List Event) : Prop where
  justified : Justified Allowed log
  granted : log.filterMap granted? = db.grants.keys
  bindings : ∀ grant_id capability binding, Event.granted grant_id capability binding ∈ log →
    L.binding binding = some binding ∧ identifierText grant_id = true ∧
      (capability.toList.all (·.toNat < 128) && capability.length = 43) = true ∧
      ∃ row, db.grants.get? grant_id = some row ∧ row.binding = binding.sorted ∧
        row.capability_digest = L.digest capability
  sent : log.filterMap sent? = db.calls.keys
  keyed : ∀ k r, db.calls.get? k = some r → k = (r.grant_id, r.call_id)
  asked : ∀ e ∈ log, ∀ k context, e.asked? = some (k, context) →
    ∃ r, db.calls.get? k = some r ∧ r.request_context = context
  owned : ∀ k r, db.calls.get? k = some r → ∃ row, db.grants.get? k.1 = some row
  sequences : ∀ g, (db.callsOf g).map (·.sequence) = range' 1 (db.callsOf g).length
  bounded : ∀ g row, db.grants.get? g = some row →
    ∃ n, maxRequests row.binding = some n ∧ ((db.callsOf g).length : Int) ≤ n
  revoked : ∀ g ∈ log.filterMap revoked?, ∃ row, db.grants.get? g = some row ∧ row.revoked_at.isSome
  expired : ∀ g ∈ log.filterMap expired?, db.expired.contains g = true

section
variable {f : Event → Option κ} {e : Event}

theorem filterMap_snoc_none (h : f e = none) : (log ++ [e]).filterMap f = log.filterMap f := by
  simp [filterMap_append, h]

theorem filterMap_snoc_some (h : f e = some k) : (log ++ [e]).filterMap f = log.filterMap f ++ [k] := by
  simp [filterMap_append, h]

theorem mem_filterMap_snoc (h : k ∈ (log ++ [e]).filterMap f) : k ∈ log.filterMap f ∨ f e = some k := by
  simpa using h

end

namespace JournalInv

section
variable (h : JournalInv L db log)
include h

theorem answered (hallowed : Allowed log e)
    (hgranted : e.granted? = none) (hsent : e.sent? = none) (hasked : ∀ k context, e.asked? = some (k, context) →
      ∃ r, db.calls.get? k = some r ∧ r.request_context = context)
    (hrevoked : ∀ g, e.revoked? = some g → ∃ row, db.grants.get? g = some row ∧ row.revoked_at.isSome)
    (hexpired : ∀ g, e.expired? = some g → db.expired.contains g = true) : JournalInv L db (log ++ [e]) :=
  { h with
    justified := h.justified.snoc hallowed
    granted := by rw [filterMap_snoc_none hgranted, h.granted]
    bindings := fun grant_id capability binding hmem => by
      rcases mem_append.mp hmem with hmem | hmem
      · exact h.bindings grant_id capability binding hmem
      · obtain rfl := mem_singleton.mp hmem
        simp [Event.granted?] at hgranted
    sent := by rw [filterMap_snoc_none hsent, h.sent]
    asked := fun e' hmem k context hk => by
      rcases mem_append.mp hmem with hmem | hmem
      · exact h.asked e' hmem k context hk
      · obtain rfl := mem_singleton.mp hmem
        exact hasked k context hk
    revoked := fun g hg => by
      rcases mem_filterMap_snoc hg with hg | hg
      · exact h.revoked g hg
      · exact hrevoked g hg
    expired := fun g hg => by
      rcases mem_filterMap_snoc hg with hg | hg
      · exact h.expired g hg
      · exact hexpired g hg }

theorem revoking (hrow : db.grants.get? grant_id = some row) (now : Rat) :
    JournalInv L { db with grants := db.grants.put grant_id { row with revoked_at := some now } } log := by
  have hkeep : ∀ g row', db.grants.get? g = some row' → ∃ row'',
      (db.grants.put grant_id { row with revoked_at := some now }).get? g = some row'' ∧
        row''.binding = row'.binding ∧ row''.capability_digest = row'.capability_digest ∧
        (row'.revoked_at.isSome → row''.revoked_at.isSome) := by
    intro g row' hrow'
    by_cases hg : grant_id = g
    · subst hg
      obtain rfl := Option.some.inj (hrow.symm.trans hrow')
      exact ⟨_, get?_put_self, rfl, rfl, fun _ => rfl⟩
    · exact ⟨row', by rw [get?_put_of_ne hg, hrow'], rfl, rfl, fun hs => hs⟩
  constructor
  case justified => exact h.justified
  case granted =>
    have hmem : grant_id ∈ db.grants.keys := Dict.mem_keys.mpr ⟨row, hrow⟩
    rw [h.granted, keys_put, if_pos hmem]
  case bindings =>
    intro g capability binding hmem
    obtain ⟨hbinding, hid, htoken, row', hrow', hsame, hdigest⟩ := h.bindings g capability binding hmem
    obtain ⟨row'', hrow'', hb, hd, -⟩ := hkeep g row' hrow'
    exact ⟨hbinding, hid, htoken, row'', hrow'', hb.trans hsame, hd.trans hdigest⟩
  case sent => exact h.sent
  case keyed => exact h.keyed
  case asked => exact h.asked
  case owned =>
    intro k r hr
    obtain ⟨row', hrow'⟩ := h.owned k r hr
    obtain ⟨row'', hrow'', -⟩ := hkeep k.1 row' hrow'
    exact ⟨row'', hrow''⟩
  case sequences => exact h.sequences
  case bounded =>
    intro g row' hrow'
    rcases of_put hrow' with ⟨rfl, rfl⟩ | ⟨-, hrow'⟩
    · exact h.bounded grant_id row hrow
    · exact h.bounded g row' hrow'
  case revoked =>
    intro g hg
    obtain ⟨row', hrow', hsome⟩ := h.revoked g hg
    obtain ⟨row'', hrow'', -, -, hkept⟩ := hkeep g row' hrow'
    exact ⟨row'', hrow'', hkept hsome⟩
  case expired => exact h.expired

theorem expiring (grant_id : String) (now : Rat) :
    JournalInv L { db with expired := db.expired.putNew grant_id now } log :=
  { h with
    expired := fun g hg => by
      have hold := h.expired g hg
      simp only [Dict.contains, Dict.get?_putNew] at hold ⊢
      split
      · rfl
      · exact hold }

theorem completing (hold : db.calls.get? (grant_id, call_id) = some old) (value : Json) (now : Rat) :
    JournalInv L { db with calls := db.calls.put (grant_id, call_id) (old.complete value now) } log := by
  have hsequences := callsOf_put_old (old.complete value now) hold rfl
  have hlength : ∀ g, (({ db with calls := db.calls.put (grant_id, call_id) (old.complete value now) } :
      Db).callsOf g).length = (db.callsOf g).length := by
    intro g
    simpa using congrArg length (hsequences g)
  have hmem : (grant_id, call_id) ∈ db.calls.keys := Dict.mem_keys.mpr ⟨old, hold⟩
  constructor
  case justified => exact h.justified
  case granted => exact h.granted
  case bindings => exact h.bindings
  case sent => rw [h.sent, keys_put, if_pos hmem]
  case keyed =>
    intro k r hr
    rcases of_put hr with ⟨hk, rfl⟩ | ⟨-, hr⟩
    · exact hk ▸ h.keyed _ old hold
    · exact h.keyed k r hr
  case asked =>
    intro e he k context hk
    obtain ⟨r, hr, hcontext⟩ := h.asked e he k context hk
    by_cases hkey : (grant_id, call_id) = k
    · subst hkey
      obtain rfl := Option.some.inj (hold.symm.trans hr)
      exact ⟨_, get?_put_self, hcontext⟩
    · exact ⟨r, by rw [get?_put_of_ne hkey, hr], hcontext⟩
  case owned =>
    intro k r hr
    rw [get?_put] at hr
    split at hr
    case isTrue hk => exact hk ▸ h.owned _ old hold
    · exact h.owned k r hr
  case sequences =>
    intro g
    rw [hsequences, hlength, h.sequences]
  case bounded =>
    intro g row hrow
    rw [hlength]
    exact h.bounded g row hrow
  case revoked => exact h.revoked
  case expired => exact h.expired

theorem granting (hid : identifierText grant_id = true)
    (hvalue : L.binding form = some value) (hnone : db.grants.get? grant_id = none)
    (capability : Token) (now : Rat) :
    JournalInv L { db with grants := db.grants.put grant_id (newGrant L value capability now) }
      (log ++ [.granted grant_id capability.text value]) := by
  have hold : ∀ g row, db.grants.get? g = some row →
      (db.grants.put grant_id (newGrant L value capability now)).get? g = some row :=
    fun g row hrow => get?_put_new hnone hrow
  have hempty : db.callsOf grant_id = [] := by
    rw [eq_nil_iff_forall_not_mem]
    intro r hr
    obtain ⟨call_id, hget⟩ := mem_callsOf hr
    obtain ⟨row, hrow⟩ := h.owned _ r hget
    simp [hnone] at hrow
  have hnew : grant_id ∉ db.grants.keys := get?_eq_none.mp hnone
  constructor
  case justified => exact h.justified.snoc trivial
  case granted =>
    rw [filterMap_snoc_some (k := grant_id) rfl, h.granted, keys_put, if_neg hnew]
  case bindings =>
    intro g text binding hmem
    rcases mem_append.mp hmem with hmem | hmem
    · obtain ⟨hbinding, hg, htoken, row, hrow, hsame⟩ := h.bindings g text binding hmem
      exact ⟨hbinding, hg, htoken, row, hold g row hrow, hsame⟩
    · cases mem_singleton.mp hmem
      have htoken : (capability.text.toList.all (·.toNat < 128) && capability.text.length = 43) = true := by
        simp [capability.ascii, capability.length]
      exact ⟨binding_stable hvalue, hid, htoken, _, get?_put_self, rfl, rfl⟩
  case sent => rw [filterMap_snoc_none rfl, h.sent]
  case keyed => exact h.keyed
  case asked =>
    intro e he k context hk
    rcases mem_append.mp he with he | he
    · exact h.asked e he k context hk
    · obtain rfl := mem_singleton.mp he
      simp [asked?] at hk
  case owned =>
    intro k r hr
    obtain ⟨row, hrow⟩ := h.owned k r hr
    exact ⟨row, hold _ row hrow⟩
  case sequences => exact h.sequences
  case bounded =>
    intro g row hrow
    rcases of_put hrow with ⟨rfl, rfl⟩ | ⟨-, hrow⟩
    · obtain ⟨n, hn, hpositive, -⟩ := binding_maxRequests hvalue
      refine ⟨n, (maxRequests_sorted value).trans hn, ?_⟩
      show ((db.callsOf grant_id).length : Int) ≤ n
      simp [hempty]
      omega
    · exact h.bounded g row hrow
  case revoked =>
    intro g hg
    rw [filterMap_snoc_none rfl] at hg
    obtain ⟨row, hrow, hsome⟩ := h.revoked g hg
    exact ⟨row, hold g row hrow, hsome⟩
  case expired =>
    intro g hg
    rw [filterMap_snoc_none rfl] at hg
    exact h.expired g hg

theorem sending (hrow : db.grants.get? grant_id = some row) (hs : Sent db grant_id call_id context row receipt) :
    JournalInv L { db with calls := db.calls.put (grant_id, call_id) receipt }
      (log ++ [.sent context receipt]) := by
  have hcalls := callsOf_put_new receipt hs.new
  have hnew : (grant_id, call_id) ∉ db.calls.keys := get?_eq_none.mp hs.new
  have hkey : (receipt.grant_id, receipt.call_id) = (grant_id, call_id) := by rw [hs.grant, hs.call]
  have hmem : grant_id ∈ log.filterMap granted? := h.granted ▸ Dict.mem_keys.mpr ⟨row, hrow⟩
  have hallowed : Allowed log (.sent context receipt) := by
    obtain ⟨expires_at, hexpires, hearly⟩ := hs.early
    obtain ⟨e, he, hgrant⟩ := mem_filterMap.mp hmem
    refine ⟨?_, ?_, ?_, ?_⟩
    · rw [hkey, h.sent]
      exact hnew
    · rw [hs.grant]
      intro hrevoked
      obtain ⟨row', hrow', hsome⟩ := h.revoked grant_id hrevoked
      obtain rfl := Option.some.inj (hrow.symm.trans hrow')
      simp [hs.unrevoked] at hsome
    · rw [hs.grant]
      intro hexpired
      have := h.expired grant_id hexpired
      simp [hs.unexpired] at this
    · cases e with
      | granted g capability binding =>
        cases hgrant
        obtain ⟨-, -, -, row', hrow', hsame, -⟩ := h.bindings grant_id capability binding he
        obtain rfl := Option.some.inj (hrow.symm.trans hrow')
        rw [hsame, expiresAt_sorted] at hexpires
        exact ⟨capability, binding, expires_at, hs.grant ▸ he, hexpires, hearly⟩
      | _ => cases hgrant
  constructor
  case justified => exact h.justified.snoc hallowed
  case granted => rw [filterMap_snoc_none rfl, h.granted]
  case bindings =>
    intro g capability binding hmem
    rcases mem_append.mp hmem with hmem | hmem
    · exact h.bindings g capability binding hmem
    · cases mem_singleton.mp hmem
  case sent =>
    rw [filterMap_snoc_some (k := (grant_id, call_id)) (congrArg some hkey), h.sent, keys_put, if_neg hnew]
  case keyed =>
    intro k r hr
    rcases of_put hr with ⟨hk, rfl⟩ | ⟨-, hr⟩
    · exact hk ▸ hkey.symm
    · exact h.keyed k r hr
  case asked =>
    intro e he k context' hk
    rcases mem_append.mp he with he | he
    · obtain ⟨r, hr, hcontext⟩ := h.asked e he k context' hk
      exact ⟨r, get?_put_new hs.new hr, hcontext⟩
    · obtain rfl := mem_singleton.mp he
      obtain ⟨rfl, rfl⟩ := hk
      exact ⟨receipt, by rw [hkey]; exact get?_put_self, hs.context⟩
  case owned =>
    intro k r hr
    rw [get?_put] at hr
    split at hr
    case isTrue hk => exact ⟨row, hk ▸ hrow⟩
    · exact h.owned k r hr
  case sequences =>
    intro g
    rw [hcalls, map_append, h.sequences, length_append]
    by_cases hg : grant_id = g
    · subst hg
      simp only [if_true, map_cons, map_nil, length_singleton, hs.sequence]
      rw [range'_1_concat, Nat.add_comm 1]
    · simp [hg]
  case bounded =>
    intro g row' hrow'
    rw [hcalls]
    by_cases hg : grant_id = g
    · subst hg
      obtain rfl := Option.some.inj (hrow.symm.trans hrow')
      obtain ⟨n, hn, hlt⟩ := hs.bounded
      refine ⟨n, hn, ?_⟩
      simp
      omega
    · simpa [hg] using h.bounded g row' hrow'
  case revoked =>
    intro g hg
    rw [filterMap_snoc_none rfl] at hg
    exact h.revoked g hg
  case expired =>
    intro g hg
    rw [filterMap_snoc_none rfl] at hg
    exact h.expired g hg

end

end JournalInv

-- Steps

theorem JournalInv.step (h : JournalInv L db log) (action : Action) :
    JournalInv L (GoJournal.step L db action) (log ++ (emit L db action).toList) := by
  cases action with
  | create form grant_id reading capability =>
    simp only [GoJournal.step, emit]
    cases hresult : createGrant L form grant_id reading capability db with
    | error e => simpa [commit] using h
    | ok r =>
      obtain ⟨db', created⟩ := r
      obtain ⟨value, hid, hvalue, ⟨old, -, -, rfl, rfl⟩ | ⟨hnone, now, rfl, rfl⟩⟩ := createGrant_ok hresult
      · exact h.answered trivial rfl rfl (by simp [asked?]) (by simp [revoked?])
          (by simp [expired?])
      · exact h.granting hid hvalue hnone capability now
  | revoke grant_id reading =>
    simp only [GoJournal.step, emit]
    cases hresult : revokeGrant grant_id reading db with
    | error e => simpa [commit] using h
    | ok r =>
      obtain ⟨db', revoked_at⟩ := r
      obtain ⟨row, hrow, ⟨hrevoked, rfl⟩ | ⟨-, now, rfl⟩⟩ := revokeGrant_ok hresult
      · refine h.answered trivial rfl rfl (by simp [asked?]) ?_ (by simp [expired?])
        intro g hg
        cases hg
        exact ⟨row, hrow, hrevoked⟩
      · refine (h.revoking hrow now).answered trivial rfl rfl (by simp [asked?]) ?_
          (by simp [expired?])
        intro g hg
        cases hg
        exact ⟨_, get?_put_self, rfl⟩
  | beginCall grant_id call_id capability form request_context reading =>
    simp only [GoJournal.step, emit]
    cases hresult : beginCall L grant_id call_id capability form request_context reading db with
    | error e => simpa [commit] using h
    | ok r =>
      obtain ⟨db', begun⟩ := r
      obtain ⟨row, hrow, ⟨old, hold, hcontext, rfl, rfl⟩ | ⟨now, rfl, rfl⟩ |
        ⟨receipt, hsent, rfl, rfl⟩⟩ := beginCall_ok hresult
      · refine h.answered trivial rfl rfl ?_ (by simp [revoked?]) (by simp [expired?])
        intro k context hk
        cases hk
        exact ⟨old, h.keyed _ old hold ▸ hold, hcontext⟩
      · refine (h.expiring grant_id now).answered trivial rfl rfl (by simp [asked?])
          (by simp [revoked?]) ?_
        intro g hg
        cases hg
        simp only [Dict.contains, Dict.get?_putNew]
        split
        · rfl
        case isFalse hnot => cases hget : db.expired.get? grant_id <;> simp_all
      · exact h.sending hrow hsent
  | complete grant_id call_id capability form result reading =>
    simp only [GoJournal.step, emit]
    cases hresult : completeCall L grant_id call_id capability form result reading db with
    | error e => simpa [commit] using h
    | ok r =>
      obtain ⟨db', receipt⟩ := r
      obtain ⟨old, hold, rfl | ⟨-, value, now, rfl⟩⟩ := completeCall_ok hresult
      · exact h.answered trivial rfl rfl (by simp [asked?]) (by simp [revoked?])
          (by simp [expired?])
      · exact (h.completing hold value now).answered trivial rfl rfl (by simp [asked?])
          (by simp [revoked?]) (by simp [expired?])

theorem journalInv_empty : JournalInv L .empty [] where
  justified := .nil
  granted := rfl
  bindings := by simp
  sent := rfl
  keyed k r h := by simp [Db.empty] at h
  asked := by simp
  owned k r h := by simp [Db.empty] at h
  sequences g := rfl
  bounded g row h := by simp [Db.empty] at h
  revoked := by simp
  expired := by simp

theorem journalInv_reach (h : ((system L).traced (emit L)).Reach System.free p) : JournalInv L p.1 p.2 := by
  refine h.invariant (I := fun q => JournalInv L q.1 q.2) ?_ fun q action hq _ => JournalInv.step hq action
  rintro ⟨i, log⟩ ⟨rfl, rfl⟩
  exact journalInv_empty

-- What stays

structure GrantRow.Later (row row' : GrantRow) : Prop where
  binding : row'.binding = row.binding
  capability : row'.capability_digest = row.capability_digest
  revoked : row.revoked_at.isSome → row' = row

/-- A receipt keeps its number and its context, and all of it once its outcome is recorded. -/
structure Receipt.Later (receipt receipt' : Receipt) : Prop where
  sequence : receipt'.sequence = receipt.sequence
  context : receipt'.request_context = receipt.request_context
  recorded : receipt.outcome.isSome → receipt' = receipt

structure Later (db db' : Db) : Prop where
  grants : db.grants.Grows GrantRow.Later db'.grants
  calls : db.calls.Grows Receipt.Later db'.calls
  count : ∀ g, (db.callsOf g).length ≤ (db'.callsOf g).length

theorem GrantRow.Later.refl (row : GrantRow) : row.Later row := ⟨rfl, rfl, fun _ => rfl⟩

theorem GrantRow.Later.trans (r r' r'' : GrantRow) (h : r.Later r') (h' : r'.Later r'') : r.Later r'' where
  binding := h'.binding.trans h.binding
  capability := h'.capability.trans h.capability
  revoked hs := by
    have heq := h.revoked hs
    exact (h'.revoked (heq ▸ hs)).trans heq

theorem Receipt.Later.refl (receipt : Receipt) : receipt.Later receipt := ⟨rfl, rfl, fun _ => rfl⟩

theorem Receipt.Later.trans (r r' r'' : Receipt) (h : r.Later r') (h' : r'.Later r'') : r.Later r'' where
  sequence := h'.sequence.trans h.sequence
  context := h'.context.trans h.context
  recorded hs := by
    have heq := h.recorded hs
    exact (h'.recorded (heq ▸ hs)).trans heq

theorem Later.refl (db : Db) : Later db db := ⟨.refl .refl _, .refl .refl _, fun _ => le_refl _⟩

theorem Later.trans (h : Later db db') (h' : Later db' db'') : Later db db'' where
  grants := h.grants.trans GrantRow.Later.trans h'.grants
  calls := h.calls.trans Receipt.Later.trans h'.calls
  count g := (h.count g).trans (h'.count g)

theorem step_later (db : Db) (action : Action) : Later db (step L db action) := by
  cases action with
  | create form grant_id reading capability =>
    simp only [step]
    cases hresult : createGrant L form grant_id reading capability db with
    | error e => exact .refl db
    | ok r =>
      obtain ⟨db', created⟩ := r
      obtain ⟨value, -, -, ⟨old, -, -, rfl, -⟩ | ⟨hnone, now, rfl, -⟩⟩ := createGrant_ok hresult
      · exact .refl db'
      · exact ⟨.put_new .refl hnone, .refl .refl _, fun _ => le_refl _⟩
  | revoke grant_id reading =>
    simp only [step]
    cases hresult : revokeGrant grant_id reading db with
    | error e => exact .refl db
    | ok r =>
      obtain ⟨db', revoked_at⟩ := r
      obtain ⟨row, hrow, ⟨-, rfl⟩ | ⟨hnone, now, rfl⟩⟩ := revokeGrant_ok hresult
      · exact .refl db'
      · refine ⟨.put .refl fun row' hrow' => ?_, .refl .refl _, fun _ => le_refl _⟩
        obtain rfl := Option.some.inj (hrow.symm.trans hrow')
        exact ⟨rfl, rfl, by simp [hnone]⟩
  | beginCall grant_id call_id capability form request_context reading =>
    simp only [step]
    cases hresult : beginCall L grant_id call_id capability form request_context reading db with
    | error e => exact .refl db
    | ok r =>
      obtain ⟨db', begun⟩ := r
      obtain ⟨row, -, ⟨old, -, -, rfl, -⟩ | ⟨now, rfl, -⟩ | ⟨receipt, hsent, rfl, -⟩⟩ := beginCall_ok hresult
      · exact .refl db'
      · exact ⟨.refl .refl _, .refl .refl _, fun _ => le_refl _⟩
      · refine ⟨.refl .refl _, .put_new .refl hsent.new, fun g => ?_⟩
        simp [commit, callsOf_put_new receipt hsent.new]
  | complete grant_id call_id capability form result reading =>
    simp only [step]
    cases hresult : completeCall L grant_id call_id capability form result reading db with
    | error e => exact .refl db
    | ok r =>
      obtain ⟨db', receipt⟩ := r
      obtain ⟨old, hold, rfl | ⟨hnone, value, now, rfl⟩⟩ := completeCall_ok hresult
      · exact .refl db'
      · refine ⟨.refl .refl _, .put .refl fun r hr => ?_, fun g => ?_⟩
        · obtain rfl := Option.some.inj (hold.symm.trans hr)
          exact ⟨rfl, rfl, by simp [hnone]⟩
        · have hsame := congrArg length (callsOf_put_old (old.complete value now) hold rfl g)
          simp only [length_map] at hsame
          exact hsame.ge

theorem path_later (h : ((system L).traced (emit L)).Path System.free p p') : Later p.1 p'.1 :=
  h.relates (R := fun q q' => Later q.1 q'.1) (fun q => .refl q.1) (fun _ _ _ => .trans)
    fun q action _ => step_later q.1 action

/-- A call is sent once, under a grant that had not ended; its grant's calls are numbered up to
its bound, nothing recorded changes, and the binding of a grant authenticates it in every form. -/
theorem journal_kept (h : ((system L).traced (emit L)).Reach System.free (db, log)) :
    (log.filterMap sent?).Nodup ∧ Justified Allowed log ∧
    (∀ g row, db.grants.get? g = some row → ∃ n, maxRequests row.binding = some n ∧
      ((db.callsOf g).length : Int) ≤ n ∧
      (db.callsOf g).map (·.sequence) = range' 1 (db.callsOf g).length) ∧
    log.filterMap granted? = db.grants.keys ∧ (log.filterMap granted?).Nodup ∧
    (∀ form grant_id reading capability value row, L.binding form = some value →
      db.grants.get? grant_id = some row → row.binding = value.sorted →
      createGrant L form grant_id reading capability db = .ok (db, ⟨grant_id, value, none⟩)) ∧
    (∀ e ∈ log, ∀ e' ∈ log, ∀ k context context', e.asked? = some (k, context) →
      e'.asked? = some (k, context') → context = context') ∧
    (∀ grant_id capability binding, granted grant_id capability binding ∈ log →
      L.binding binding = some binding ∧ L.binding binding.sorted = some binding ∧
      ∃ row, db.grants.get? grant_id = some row ∧ ∀ form value, L.binding form = some value →
        value.sorted = binding.sorted → authenticate L row value capability = .ok ()) ∧
    ∀ db' log', ((system L).traced (emit L)).Path System.free (db, log) (db', log') → Later db db' := by
  have hinv : JournalInv L db log := journalInv_reach h
  have hgranted : (log.filterMap granted?).Nodup := hinv.granted ▸ db.grants.nodup
  refine ⟨hinv.sent ▸ db.calls.nodup, hinv.justified, ?_, hinv.granted, hgranted, ?_, ?_, ?_, ?_⟩
  · intro g row hrow
    obtain ⟨n, hn, hle⟩ := hinv.bounded g row hrow
    exact ⟨n, hn, hle, hinv.sequences g⟩
  · intro form grant_id reading capability value row hvalue hrow hsame
    have hmem : grant_id ∈ log.filterMap granted? := hinv.granted ▸ Dict.mem_keys.mpr ⟨row, hrow⟩
    obtain ⟨e, he, hgrant⟩ := mem_filterMap.mp hmem
    have hid : identifierText grant_id = true := by
      cases e with
      | granted g text binding =>
        cases hgrant
        exact (hinv.bindings grant_id text binding he).2.1
      | _ => cases hgrant
    simp [createGrant, readBinding, hid, hvalue, hrow, hsame, need, ensure, pure, Except.pure]
  · intro e he e' he' k context context' hk hk'
    obtain ⟨r, hr, hcontext⟩ := hinv.asked e he k context hk
    obtain ⟨r', hr', hcontext'⟩ := hinv.asked e' he' k context' hk'
    obtain rfl := Option.some.inj (hr.symm.trans hr')
    exact hcontext.symm.trans hcontext'
  · intro grant_id capability binding hmem
    obtain ⟨hbinding, -, htoken, row, hrow, hsame, hdigest⟩ := hinv.bindings grant_id capability binding hmem
    refine ⟨hbinding, (binding_blind binding).trans hbinding, row, hrow, ?_⟩
    intro form value hvalue hsorted
    simp only [authenticate, htoken, hdigest, hsame, hsorted, ensure, decide_true, if_true]
    rfl
  · intro db' log' hp
    exact path_later hp

namespace Sample

def library : Library where
  whitespace := (· = ' ')
  digest text := text

def capability : Token where
  text := "AAAAAAAAAAAAAAAAAAAAAAAAAAAAAAAAAAAAAAAAAAA"
  ascii := by decide +kernel
  length := by decide +kernel

def digest : String := "0000000000000000000000000000000000000000000000000000000000000000"

def bindingUntil (expires_at : Json) : Json := .object [
  ("qualification_id", .str "q1"), ("attempt_id", .str "a1"), ("fence", .int 1),
  ("profile_digest", .str digest), ("runtime_digest", .str digest), ("channel", .str "go"),
  ("model", .str "glm-5.3-flash"), ("auth_generation", .str "g1"), ("expires_at", expires_at),
  ("max_requests", .int 1)]

def form : Json := bindingUntil (.int 100)

def value : Json := bindingUntil (.float 100)

def grant? : Event → Option (String × String × Json)
  | .granted grant_id capability binding => some (grant_id, capability, binding)
  | _ => none

/-- A call that is begun twice, and a second one beyond the bound. -/
def actions : List Action := [
  .create form "g1" (some 10) capability,
  .beginCall "g1" "c1" capability.text form none (some 20),
  .beginCall "g1" "c1" capability.text form none (some 5),
  .beginCall "g1" "c2" capability.text form none (some 30)]

def after : Db × List Event := ((system library).traced (emit library)).run (.empty, []) actions

theorem after_reach : ((system library).traced (emit library)).Reach System.free (after.1, after.2) :=
  ⟨(.empty, []), ⟨rfl, rfl⟩, .of_free_run⟩

end Sample

open Sample (after library value capability form grant?)

theorem journal_kept_sample : after.2.filterMap sent? = [("g1", "c1")] ∧ Justified Allowed after.2 ∧
    ∃ row, after.1.grants.get? "g1" = some row ∧
      authenticate library row value capability.text = .ok () := by
  have hread : after.2.filterMap sent? = [("g1", "c1")] ∧
      library.binding form = some value ∧
      after.2.filterMap grant? = [("g1", capability.text, value)] := by
    decide +kernel
  obtain ⟨hsent, hvalue, hgrants⟩ := hread
  have hgranted : granted "g1" capability.text value ∈ after.2 := by
    have hmem : ("g1", capability.text, value) ∈ after.2.filterMap grant? := by
      simp [hgrants]
    obtain ⟨e, he, hgrant⟩ := mem_filterMap.mp hmem
    cases e with
    | granted => cases hgrant; exact he
    | _ => cases hgrant
  obtain ⟨-, hjustified, -, -, -, -, -, hauthentic, -⟩ := journal_kept Sample.after_reach
  obtain ⟨-, -, row, hrow, hall⟩ := hauthentic "g1" _ _ hgranted
  exact ⟨hsent, hjustified, row, hrow, hall form value hvalue rfl⟩

end Karajan.GoJournal
