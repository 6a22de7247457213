import Karajan.Workflows.Deployments

/-!
# What one step of a command does

Whatever a step of a command does to the tables is one of five moves, made
under the command's own key, and what the attempt holds in memory afterwards is
grounded in them: an intent it runs is the stored one but for its progress, a
receipt it carries has the frozen identity, and a conflict it reports was one.
-/

namespace Karajan.Workflows

open Dict Check

-- Moves

/-- The record is the deployment the terms name, loaded with the identity they froze. -/
structure Deployment.Carries (record : Deployment) (terms : Terms) : Prop where
  slot : record.slotKey = terms.slotKey
  deployment : record.deployment_id = terms.deployment_id
  expected : record.expected_active_revision = terms.expected_active_revision
  receipt : record.load_receipt.Matches terms.frozen

def Deployment.place (record : Deployment) : SlotKey × String := (record.slotKey, record.deployment_id)

inductive Move (key : CommandKey) : Tables → Tables → Prop
  | idle : Move key t t
  | ledger (foreign : ∀ row, t.commands.get? key = some row → row.result = .other) :
      Move key t { t with commands := t.commands.put key ⟨digest, .other⟩ }
  | begun (fresh : t.intents.get? key = none) :
      Move key t { t with intents := t.intents.put key intent }
  | noted (stored : t.intents.get? key = some intent) (same : noted.toTerms = intent.toTerms) :
      Move key t { t with intents := t.intents.put key noted }
  | activated {intent noted : Intent} {record : Deployment} {accepted : Accepted} {row : SlotRow}
      (stored : t.intents.get? key = some intent) (same : noted.toTerms = intent.toTerms)
      (fresh : t.commands.get? key = none) (new : t.deployments.get? record.place = none)
      (expected : t.slotRevision record.slotKey = record.expected_active_revision)
      (carries : record.Carries intent.toTerms) (result : accepted.deployment = record)
      (revision : row.slot_revision = record.expected_active_revision + 1)
      (active : row.deployment_id = record.deployment_id) :
      Move key t
        { commands := t.commands.put key ⟨digest, .deployed accepted⟩
          intents := t.intents.put key noted
          deployments := t.deployments.put record.place record
          slots := t.slots.put record.slotKey row }

def Held (t : Tables) (key : CommandKey) (terms : Terms) : Prop :=
  ∃ stored, t.intents.get? key = some stored ∧ stored.toTerms = terms

theorem Held.unique (h : Held t key terms) (h' : Held t key terms') : terms = terms' := by
  obtain ⟨stored, hstored, rfl⟩ := h
  obtain ⟨stored', hstored', rfl⟩ := h'
  rw [hstored] at hstored'
  cases hstored'
  rfl

theorem Held.put (hstored : t.intents.get? key = some intent)
    (hsame : noted.toTerms = intent.toTerms) (hintents : t'.intents = t.intents.put key noted)
    (h : Held t other terms) : Held t' other terms := by
  obtain ⟨stored, hget, rfl⟩ := h
  by_cases hk : key = other
  · subst hk
    rw [hstored] at hget
    cases hget
    exact ⟨noted, by simp [hintents], hsame⟩
  · exact ⟨stored, by rw [hintents, get?_put_of_ne hk, hget], rfl⟩

theorem Move.held (hm : Move key t t') (h : Held t other terms) : Held t' other terms := by
  cases hm with
  | idle | ledger => exact h
  | begun fresh =>
    obtain ⟨stored, hget, rfl⟩ := h
    exact ⟨stored, get?_put_new fresh hget, rfl⟩
  | noted stored same | activated stored same => exact h.put stored same rfl

theorem slotRevision_put (t : Tables) (slot : SlotKey) (row : SlotRow) (other : SlotKey) :
    ({ t with slots := t.slots.put slot row } : Tables).slotRevision other =
      if slot = other then row.slot_revision else t.slotRevision other := by
  unfold Tables.slotRevision
  rw [get?_put]
  by_cases hs : slot = other
  · simp only [if_pos hs]
  · simp only [if_neg hs]

theorem Move.revision_le (hm : Move key t t') : t.slotRevision slot ≤ t'.slotRevision slot := by
  cases hm with
  | @activated _ _ intent noted record accepted row _ _ _ _ expected _ _ revision _ =>
    have hput := slotRevision_put t record.slotKey row slot
    by_cases hs : record.slotKey = slot
    · subst hs
      rw [if_pos rfl] at hput
      have hle : t.slotRevision record.slotKey ≤ row.slot_revision := by omega
      exact hput ▸ hle
    · rw [if_neg hs] at hput
      exact Nat.le_of_eq hput.symm
  | _ => exact Nat.le_refl _

-- What an attempt holds

/-- The revision a conflict was reported with: one the slot had, not the expected one. -/
def Conflicted (t : Tables) (key : CommandKey) (error : StepError) : Prop :=
  ∀ current, error.conflict? = some current → ∃ terms, Held t key terms ∧
    current ≠ terms.expected_active_revision ∧ current ≤ t.slotRevision terms.slotKey

def Next.Matches (frozen : Frozen) : Next → Prop
  | .recordLoad receipt | .activate receipt => receipt.Matches frozen
  | _ => True

def Stage.Grounded (t : Tables) (key : CommandKey) : Stage → Prop
  | .running _ intent next => Held t key intent.toTerms ∧ next.Matches intent.frozen
  | .failing error => Conflicted t key error
  | .answered (.error error) => Conflicted t key error
  | _ => True

theorem Conflicted.of_slotFree (h : SlotFree error) : Conflicted t key (.workflow error) := by
  intro current hc
  rw [StepError.conflict?, show error.conflict? = none from h] at hc
  cases hc

theorem Conflicted.move (hm : Move key t t') (h : Conflicted t other error) : Conflicted t' other error := by
  intro current hc
  obtain ⟨terms, hheld, hne, hle⟩ := h current hc
  exact ⟨terms, hm.held hheld, hne, hle.trans hm.revision_le⟩

theorem Stage.Grounded.move {stage : Stage} (hm : Move key t t') (h : stage.Grounded t other) :
    stage.Grounded t' other := by
  match stage, h with
  | .running .., h => exact ⟨hm.held h.1, h.2⟩
  | .failing _, h => exact Conflicted.move hm h
  | .answered (.error _), h => exact Conflicted.move hm h
  | .answered (.ok _), _ => trivial
  | .targeting .., _ => trivial
  | .received _, _ => trivial
  | .building _, _ => trivial
  | .built .., _ => trivial
  | .stopped, _ => trivial

theorem onward_grounded {read : Chk β} (hok : ∀ b, read = .ok b → (next b).Grounded t key)
    (herror : ∀ e, read = .error e → (fail (.workflow e)).Grounded t key) :
    (onward read next fail).Grounded t key := by
  cases read with
  | ok b => exact hok b rfl
  | error e => exact herror e rfl

-- Transactions

variable {body : Tables → Chk (β × Tables)}

theorem owned_tables : (owned w t body).1 = t ∨ ∃ b, body t = .ok (b, (owned w t body).1) := by
  unfold owned
  cases w.refusal with
  | some => exact .inl rfl
  | none =>
    cases hbody : body t with
    | error => exact .inl rfl
    | ok read =>
      cases w.commit with
      | durable | unconfirmed => exact .inr ⟨read.1, rfl⟩
      | rolledBack => exact .inl rfl

theorem owned_ok (h : (owned w t body).2 = .ok b) : body t = .ok (b, (owned w t body).1) := by
  unfold owned at h ⊢
  cases hw : w.refusal with
  | some => rw [hw] at h; cases h
  | none =>
    rw [hw] at h
    cases hbody : body t with
    | error => simp only [hbody] at h; cases h
    | ok read =>
      cases hc : w.commit with
      | durable => simp only [hbody, hc] at h ⊢; cases h; rfl
      | rolledBack | unconfirmed => simp only [hbody, hc] at h; cases h

theorem owned_error (h : (owned w t body).2 = .error e) :
    SlotFree e ∨ body t = .error e ∧ (owned w t body).1 = t := by
  have hplain : SlotFree (plain .stateUnavailable) := conflict?_plain (by simp)
  unfold owned at h ⊢
  cases hw : w.refusal with
  | some refusal =>
    rw [hw] at h
    cases h
    exact .inl (conflict?_raised refusal)
  | none =>
    rw [hw] at h
    cases hbody : body t with
    | error => simp only [hbody] at h ⊢; cases h; exact .inr ⟨rfl, trivial⟩
    | ok read =>
      cases hc : w.commit with
      | durable => simp only [hbody, hc] at h; cases h
      | rolledBack | unconfirmed => simp only [hbody, hc] at h; cases h; exact .inl hplain

theorem owned_keeps {R : Tables → Tables → Prop} (hidle : R t t)
    (hbody : ∀ b t', body t = .ok (b, t') → R t t') : R t (owned w t body).1 := by
  have hcases : (owned w t body).1 = t ∨ ∃ b, body t = .ok (b, (owned w t body).1) := owned_tables
  rcases hcases with heq | ⟨b, hb⟩
  · rw [heq]
    exact hidle
  · exact hbody b _ hb

theorem owned_slotFree (hbody : Raises SlotFree (body t)) : Raises SlotFree (owned w t body).2 := by
  intro e h
  rcases owned_error h with hfree | ⟨hb, -⟩
  · exact hfree
  · exact hbody e hb

-- The transactions of a command

theorem historicalDeployment_slotFree : Raises SlotFree (historicalDeployment D project_id target t) :=
  (Raises.need (.of_code (by simp [plain]))).bind fun _ =>
    (Raises.ensure (.of_code (by simp [plain]))).bind fun _ => .pure

theorem historicalDeployment_move
    (h : historicalDeployment D project_id target t = .ok (record, t')) : Move key t t' := by
  simp only [historicalDeployment, bind_ok, pair_ok] at h
  obtain ⟨_, -, _, -, -, rfl⟩ := h
  exact .idle

theorem lookUp_ok (h : lookUp key t = .ok (found, t')) :
    t' = t ∧ ∀ stored, found = (none, some stored) → t.intents.get? key = some stored := by
  unfold lookUp at h
  split at h
  · cases h
    refine ⟨rfl, fun stored hfound => ?_⟩
    cases congrArg Prod.fst hfound
  · cases h; exact ⟨rfl, fun _ hfound => congrArg Prod.snd hfound⟩

theorem lookUp_slotFree : Raises SlotFree (lookUp key t) := by
  unfold lookUp
  split <;> exact .ok

theorem persist_ok (h : persist key digest record t = .ok (persisted, t')) :
    Move key t t' ∧ ∀ intent, persisted = .inr intent → Held t' key intent.toTerms := by
  unfold persist at h
  split at h
  case h_1 again _ =>
    split at h
    · cases h; exact ⟨.idle, fun _ h => nomatch h⟩
    · cases h
  · split at h
    case h_1 concurrent hconcurrent =>
      split at h
      · cases h; exact ⟨.idle, fun _ h => by cases h; exact ⟨_, hconcurrent, rfl⟩⟩
      · cases h
    case h_2 hfresh =>
      cases h
      refine ⟨.begun hfresh, ?_⟩
      rintro intent ⟨⟩
      exact ⟨_, get?_put_self, rfl⟩

theorem persist_slotFree : Raises SlotFree (persist key digest record t) := by
  have hconflict : SlotFree (plain .idempotencyConflict) := conflict?_plain (by simp)
  unfold persist
  split
  · split
    · exact .ok
    · exact .error hconflict
  · split
    · split
      · exact .ok
      · exact .error hconflict
    · exact .ok

theorem mutateIntent_move (hsame : ∀ record, (change record).toTerms = record.toTerms)
    (h : mutateIntent key change t = .ok (u, t')) : Move key t t' := by
  unfold mutateIntent at h
  split at h
  · cases h; exact .idle
  case h_2 record hrecord => cases h; exact .noted hrecord (hsame record)

theorem mutateIntent_slotFree : Raises SlotFree (mutateIntent key change t) := by
  unfold mutateIntent
  split <;> exact .ok

theorem recordStep_move (h : recordStep key step t = .ok (u, t')) : Move key t t' := by
  unfold recordStep at h
  exact mutateIntent_move (by simp) h

theorem recordFailure_move (h : recordFailure now key error t = .ok (u, t')) : Move key t t' := by
  unfold recordFailure at h
  split at h
  · cases h; exact .idle
  · exact mutateIntent_move (by simp) h

theorem deploymentRecord_carries (hmatches : receipt.Matches intent.frozen) :
    (deploymentRecord D now intent receipt principal kind steps).Carries intent.toTerms :=
  ⟨rfl, rfl, rfl, hmatches⟩

theorem activate_move (hheld : Held t key intent.toTerms) (hmatches : receipt.Matches intent.frozen)
    (h : activate D w key digest intent receipt t = .ok (result, t')) : Move key t t' := by
  unfold activate at h
  split at h
  · simp only [bind_ok, pair_ok] at h
    obtain ⟨_, -, -, rfl⟩ := h
    exact .idle
  case h_2 hfresh =>
    obtain ⟨stored, hstored, hsame⟩ := hheld
    simp only [bind_ok, pair_ok, ensure_ok, decide_eq_true_eq,
      Option.isNone_iff_eq_none, completeIntent, mutateIntent, hstored] at h
    obtain ⟨kind, -, _, hexpected, _, hnew, _, ⟨-, rfl⟩, -, rfl⟩ := h
    let record := deploymentRecord D w.now intent receipt key.principal kind
      stored.completed_steps
    have hcarries : record.Carries stored.toTerms := hsame ▸ deploymentRecord_carries hmatches
    refine @Move.activated key t digest stored _ record (acceptedOf record receipt) _ hstored ?_
      hfresh hnew hexpected hcarries rfl rfl rfl
    rw [← hsame]

theorem activate_conflict : Raises (fun e => ∀ current, e.conflict? = some current →
      current = t.slotRevision intent.slotKey ∧ current ≠ intent.expected_active_revision)
    (activate D w key digest intent receipt t) := by
  have hother : ∀ {e : WorkflowError}, e.code ≠ .slotRevisionConflict → ∀ current,
      e.conflict? = some current →
      current = t.slotRevision intent.slotKey ∧ current ≠ intent.expected_active_revision := by
    intro e he current hc
    rw [WorkflowError.conflict?, if_neg he] at hc
    cases hc
  unfold activate
  split
  · exact (Raises.ensure (hother (by simp [plain]))).bind fun _ => .pure
  · refine Raises.bind ?_ fun _ => Raises.bind ?_ fun _ => Raises.bind ?_ fun _ => ?_
    · exact (Raises.need (hother (by simp [plain]))).bind fun _ =>
        (Raises.ensure (hother (by simp [plain]))).bind fun _ => .pure
    · refine .ensure_false fun hne current hc => ?_
      cases hc
      exact ⟨rfl, of_decide_eq_false hne⟩
    · exact .ensure (hother (by simp [plain]))
    · refine Raises.bind ?_ fun _ => .pure
      unfold completeIntent mutateIntent
      split <;> exact .ok

-- The steps on files

theorem refused_slotFree (h : Raises SlotFree check) : Raises (fun e => e.conflict? = none) (refused check) := by
  cases check with
  | ok => exact .ok
  | error e => exact .error (h e rfl)

theorem stopAt_slotFree (h : ∀ e, error = some e → e.conflict? = none) :
    Raises (fun e => e.conflict? = none) (stopAt error) := by
  cases error with
  | none => exact .ok
  | some e => exact .error (h e rfl)

theorem readSource_slotFree : Raises SlotFree (readSource w frozen) :=
  attempted_slotFree.bind fun _ => (requireInventory_slotFree (by simp) (by simp)).bind fun _ =>
    (Raises.ensure (.of_code (by simp [plain]))).bind fun _ => .pure

theorem adopt_slotFree : Raises SlotFree (adopt package frozen) :=
  attempted_slotFree.bind fun _ => (requireInventory_slotFree (by simp) (by simp)).bind fun _ =>
    (Raises.ensure (.of_code (by simp [plain]))).bind fun _ => .ensure (.of_code (by simp [plain]))

theorem materialize_slotFree : Raises (fun e => e.conflict? = none) (materialize w intent packages) := by
  unfold materialize
  refine (stopAt_slotFree ?_).bind fun _ => (refused_slotFree readSource_slotFree).bind fun _ => ?_
  · intro e he
    obtain ⟨distrust, -, rfl⟩ := Option.map_eq_some_iff.mp he
    exact conflict?_raised distrust
  · dsimp only
    split
    · exact (refused_slotFree adopt_slotFree).bind fun _ => .pure
    · refine (stopAt_slotFree ?_).bind fun _ => (refused_slotFree ?_).bind fun _ => .pure
      · intro e he
        obtain ⟨_, -, rfl⟩ := Option.map_eq_some_iff.mp he
        rfl
      · exact .ensure (.of_code (by simp [plain]))

theorem freeze_slotFree : Raises SlotFree (freeze w project_id bundle_id revision) :=
  attempted_slotFree.bind fun _ => .pure

theorem build_slotFree {command : Command} : Raises SlotFree (command.build w principal) := by
  unfold Command.build
  split
  case h_1 refusal _ => exact .error (conflict?_raised refusal)
  · refine (Raises.need (.of_code (by simp [plain]))).bind fun _ => ?_
    refine (Raises.ensure (.of_code (by simp [plain]))).bind fun _ => freeze_slotFree.bind fun _ => ?_
    refine (Raises.ensure (.of_code (by simp [withFields]))).bind fun _ => ?_
    exact (Raises.ensure (.of_code (by simp [plain]))).bind fun _ => .pure
  · exact freeze_slotFree.bind fun _ => .pure

-- One step of an attempt

theorem resolve_grounded (hfound : ∀ stored, found = (none, some stored) → t.intents.get? key = some stored) :
    (resolve digest command found).Grounded t key := by
  have hconflict : Conflicted t key (.workflow (plain .idempotencyConflict)) :=
    .of_slotFree (conflict?_plain (by simp))
  match found with
  | (some completed, _) =>
    simp only [resolve]
    split
    · trivial
    · exact hconflict
  | (none, none) => trivial
  | (none, some stored) =>
    simp only [resolve]
    split
    · exact ⟨⟨stored, hfound stored rfl, rfl⟩, trivial⟩
    · exact hconflict

theorem execute_spec {next : Next} (hheld : Held t key intent.toTerms) (hmatches : next.Matches intent.frozen) :
    Move key t (execute D w key digest intent t packages next).1 ∧
      (execute D w key digest intent t packages next).2.2.Grounded
        (execute D w key digest intent t packages next).1 key := by
  cases next with
  | materialize =>
    unfold execute
    cases hcopied : materialize w intent packages with
    | ok => exact ⟨.idle, hheld, trivial⟩
    | error e =>
      refine ⟨.idle, fun current hc => ?_⟩
      rw [materialize_slotFree e hcopied] at hc
      cases hc
  | recordMaterialize =>
    have hmove : Move key t (owned w t (recordStep key .materialize)).1 := owned_keeps .idle fun _ _ => recordStep_move
    refine ⟨hmove, onward_grounded (fun _ _ => ⟨hmove.held hheld, trivial⟩) fun e he => ?_⟩
    exact .of_slotFree (owned_slotFree mutateIntent_slotFree e he)
  | load =>
    refine ⟨.idle, onward_grounded (fun receipt hr => ⟨hheld, load_matches hr⟩) fun e he => ?_⟩
    exact .of_slotFree (load_slotFree e he)
  | recordLoad receipt =>
    have hmove : Move key t (owned w t (recordStep key .load)).1 := owned_keeps .idle fun _ _ => recordStep_move
    refine ⟨hmove, onward_grounded (fun _ _ => ⟨hmove.held hheld, hmatches⟩) fun e he => ?_⟩
    exact .of_slotFree (owned_slotFree mutateIntent_slotFree e he)
  | activate receipt =>
    have hmove : Move key t (owned w t (activate D w key digest intent receipt)).1 :=
      owned_keeps .idle fun _ _ => activate_move hheld hmatches
    refine ⟨hmove, onward_grounded (fun _ _ => trivial) fun e he => ?_⟩
    rcases owned_error he with hfree | ⟨hrefused, htables⟩
    · exact .of_slotFree hfree
    · -- the transaction was undone, so the slot is where the conflict found it
      intro current hc
      obtain ⟨rfl, hne⟩ := activate_conflict e hrefused current hc
      exact ⟨intent.toTerms, hmove.held hheld, hne, hmove.revision_le⟩

theorem advance_spec {attempt : Attempt} (hg : attempt.stage.Grounded t attempt.key) :
    Move attempt.key t (attempt.advance D w t packages).1 ∧
      (attempt.advance D w t packages).2.2.Grounded (attempt.advance D w t packages).1 attempt.key := by
  obtain ⟨controller, key, stage⟩ := attempt
  cases stage with
  | targeting project_id target expected =>
    refine ⟨owned_keeps .idle fun _ _ => historicalDeployment_move, onward_grounded (fun _ _ => trivial)
      fun e he => ?_⟩
    exact .of_slotFree (owned_slotFree historicalDeployment_slotFree e he)
  | received command =>
    refine ⟨owned_keeps .idle fun _ _ h => (lookUp_ok h).1 ▸ .idle, onward_grounded (fun found hf => ?_)
      fun e he => .of_slotFree (owned_slotFree lookUp_slotFree e he)⟩
    obtain ⟨htables, hstored⟩ := lookUp_ok (owned_ok hf)
    refine resolve_grounded fun stored h => ?_
    show (owned w t (lookUp key)).1.intents.get? key = some stored
    rw [htables]
    exact hstored stored h
  | building command =>
    refine ⟨.idle, onward_grounded (fun _ _ => trivial) fun e he => ?_⟩
    exact .of_slotFree (build_slotFree e he)
  | built command record =>
    refine ⟨owned_keeps .idle fun _ _ h => (persist_ok h).1, onward_grounded (fun persisted hp => ?_)
      fun e he => .of_slotFree (owned_slotFree persist_slotFree e he)⟩
    cases persisted with
    | inl => trivial
    | inr intent => exact ⟨(persist_ok (owned_ok hp)).2 intent rfl, trivial⟩
  | running digest intent next => exact execute_spec hg.1 hg.2
  | failing error =>
    have hmove : Move key t (owned w t (recordFailure w.now key error)).1 :=
      owned_keeps .idle fun _ _ => recordFailure_move
    exact ⟨hmove, Conflicted.move hmove hg⟩
  | answered answer => exact ⟨.idle, hg⟩
  | stopped => exact ⟨.idle, trivial⟩

end Karajan.Workflows
