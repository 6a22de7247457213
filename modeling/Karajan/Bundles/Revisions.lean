import Karajan.Bundles.Readback

/-!
# Published revisions

Over every run of competing commands, with a process that may stop between
writing a directory and committing its row: the committed revisions are 1 to the
head, each was committed by one command, all of them and all authoring inputs
are of one conversation, and what was committed stays and reads back.
-/

namespace Karajan.Bundles

open List Dict Check

namespace Tables

def head (t : Tables) : Nat := (t.current.map CurrentRow.revision).getD 0

structure OwnedBy (t : Tables) (conversation_id : String) : Prop where
  current : ∀ row, t.current = some row → row.conversation_id = conversation_id
  revisions : ∀ k row, t.bundles.get? k = some row → row.conversation_id = conversation_id
  authoring : ∀ k a, t.authoring.get? k = some a → a.conversation_id = conversation_id

end Tables

-- The fixed conversation

theorem requireFixedConversation_ok (h : requireFixedConversation t c = .ok ()) :
    (∀ row, t.current = some row → row.conversation_id = c) ∧
      ∀ a, firstInput t = some a → a.conversation_id = c := by
  simp only [requireFixedConversation, requireClaimed, bind_ok, ensure_ok, Option.all_eq_true,
    decide_eq_true_eq] at h
  obtain ⟨-, hcurrent, hfirst⟩ := h
  exact ⟨hcurrent, hfirst⟩

theorem firstInput_mem (h : firstInput t = some a) : ∃ k, t.authoring.get? k = some a := by
  simp only [firstInput, Option.map_eq_some_iff] at h
  obtain ⟨⟨k, a⟩, hhead, rfl⟩ := h
  have hm := List.mem_of_mem_head? hhead
  exact ⟨k, Dict.get?_eq_some.mpr ((List.mem_insertionSort _).mp hm)⟩

theorem firstInput_none (h : firstInput t = none) : t.authoring.get? k = none := by
  simp only [firstInput, Option.map_eq_none_iff, List.head?_eq_none_iff] at h
  have hempty : t.authoring.entries = [] := by
    rw [List.eq_nil_iff_length_eq_zero, ← List.length_insertionSort (fun a b => a.1 ≤ b.1), h]
    rfl
  simp [Dict.get?, hempty, Dict.lookup]

theorem Tables.OwnedBy.of_fixed (h : t.OwnedBy c) (hrows : t.current = none → ∀ k, t.bundles.get? k = none)
    (hfixed : requireFixedConversation t c' = .ok ()) : t.OwnedBy c' := by
  obtain ⟨hcurrent, hfirst⟩ := requireFixedConversation_ok hfixed
  cases hrow : t.current with
  | some row =>
    have hsame : c = c' := (h.current row hrow).symm.trans (hcurrent row hrow)
    exact hsame ▸ h
  | none =>
    refine { current := hcurrent, revisions := ?_, authoring := ?_ }
    · intro k row hk
      simp [hrows hrow k] at hk
    · intro k a hk
      cases hinput : firstInput t with
      | none => simp [firstInput_none hinput] at hk
      | some first =>
        obtain ⟨k₁, hk₁⟩ := firstInput_mem hinput
        have hsame : c = c' := (h.authoring k₁ first hk₁).symm.trans (hfirst first hinput)
        exact hsame ▸ h.authoring k a hk

theorem checkHead_ok (h : checkHead t expected = .ok ()) : t.head = expected.getD 0 := by
  unfold checkHead at h
  split at h
  case h_1 hnone => simp [Tables.head, hnone]
  · cases h
  · cases h
  case h_4 row hrow =>
    have hrevision := of_decide_eq_true (ensure_ok.mp h)
    simp [Tables.head, hrow, hrevision]

-- What a command prepares and files

def Publication.Follows (p : Publication) : Prop := p.revision = p.expected_revision.getD 0 + 1

theorem prepareSupplied_ok (h : prepareSupplied L I w command q number revision expected = .ok p) :
    p.revision = revision ∧ p.expected_revision = expected := by
  simp only [prepareSupplied, bind_ok, pure_ok] at h
  obtain ⟨-, -, declared, -, files, -, kind, -, compiled, -, digest, -, rfl⟩ := h
  exact ⟨rfl, rfl⟩

theorem createBundle_ok (h : createBundle L I w q = .ok (.publication p)) : p.Follows := by
  simp only [createBundle, bind_ok, pure_ok, Prepared.publication.injEq] at h
  obtain ⟨-, -, -, -, p, hp, rfl⟩ := h
  obtain ⟨hrevision, hexpected⟩ := prepareSupplied_ok hp
  simp [Publication.Follows, hrevision, hexpected]

theorem reviseBundle_ok (h : reviseBundle L I w t expected q = .ok (.publication p)) : p.Follows := by
  simp only [reviseBundle, bind_ok, pure_ok, Prepared.publication.injEq] at h
  obtain ⟨-, -, n, -, -, -, -, -, -, -, -, -, p, hp, rfl⟩ := h
  obtain ⟨hrevision, hexpected⟩ := prepareSupplied_ok hp
  simp [Publication.Follows, hrevision, hexpected]

theorem edit_ok (h : edit L I w t disk expected q = .ok (.publication p)) : p.Follows := by
  simp only [edit, bind_ok] at h
  obtain ⟨-, -, n, -, -, -, -, -, edits, -, digest, -, -, -, replayed, -, h⟩ := h
  cases replayed with
  | some result => simp [pure_ok] at h
  | none =>
    simp only [bind_ok, pure_ok, Prepared.publication.injEq] at h
    obtain ⟨record, -, verified, -, files, -, compiled, -, rfl⟩ := h
    rfl

/-- An input is filed under its own conversation; nothing else of the identity changes. -/
structure Filed (t : Tables) (conversation_id : String) (t' : Tables) : Prop where
  owner : requireFixedConversation t conversation_id = .ok ()
  bundles : t'.bundles = t.bundles
  current : t'.current = t.current
  files : t'.files = t.files
  authoring : ∃ item : AuthoringInput, item.conversation_id = conversation_id ∧
    t'.authoring = t.authoring.put item.revision item

theorem author_ok (h : author L I w t a = .ok (t', answer)) :
    (t' = t ∨ Filed t a.conversation_id t') ∧ answer.revision? = none ∧
      ∀ failure, answer ≠ .failed failure := by
  simp only [author, bind_ok] at h
  obtain ⟨-, -, -, -, -, -, instruction, -, -, -, digest, -, -, -, replayed, -, h⟩ := h
  cases replayed with
  | some result =>
    simp only [pair_ok] at h
    obtain ⟨rfl, rfl⟩ := h
    exact ⟨.inl rfl, rfl, by simp⟩
  | none =>
    obtain ⟨⟨⟩, howner, h⟩ := bind_ok.mp h
    have hfiled : ∃ item : AuthoringInput, item.conversation_id = a.conversation_id ∧
        ∃ row, t' = { t with
          authoring := t.authoring.put item.revision item
          commands := t.commands.put (a.principal, a.command_key) row } ∧
          ∃ result, answer = .authored result := by
      refine ⟨⟨a.conversation_id, nextInput t, a.payload.get "base_revision", instruction,
        a.principal, w.clock⟩, rfl, ?_⟩
      split at h
      all_goals
        simp only [bind_ok, pair_ok] at h
      · obtain ⟨n, -, record, -, -, -, spelled, -, rfl, rfl⟩ := h
        exact ⟨_, rfl, _, rfl⟩
      · obtain ⟨-, -, spelled, -, rfl, rfl⟩ := h
        exact ⟨_, rfl, _, rfl⟩
    obtain ⟨item, hitem, row, rfl, result, rfl⟩ := hfiled
    exact ⟨.inr { owner := howner, bundles := rfl, current := rfl, files := rfl
                  authoring := ⟨item, hitem, rfl⟩ }, rfl, by simp⟩

-- The invariant

structure Inv (L : Library) (I : Identity) (s : Sys) : Prop where
  rows : ∀ k, (∃ row, s.tables.bundles.get? k = some row) ↔ 1 ≤ k ∧ k ≤ s.tables.head
  committed : s.answers.filterMap Answer.revision? = range' 1 s.tables.head
  owner : ∃ c, s.tables.OwnedBy c
  stored : ∀ k row, s.tables.bundles.get? k = some row → Stored L I s.disk k row
  pending : ∀ p ∈ s.pending, p.Follows

theorem Inv.no_rows (h : Inv L I s) (hnone : s.tables.current = none) (k : Nat) :
    s.tables.bundles.get? k = none := by
  cases hk : s.tables.bundles.get? k with
  | none => rfl
  | some row =>
    have hbound := (h.rows k).mp ⟨row, hk⟩
    simp only [Tables.head, hnone, Option.map_none, Option.getD_none] at hbound
    omega

theorem inv_initial (h : (system L I).initial s) : Inv L I s := by
  obtain ⟨hbundles, hcurrent, -, hauthoring, hpending, hanswers⟩ := h
  have hhead : s.tables.head = 0 := by simp [Tables.head, hcurrent]
  refine { rows := ?_, committed := ?_, owner := ⟨"", ?_⟩, stored := ?_, pending := ?_ }
  · intro k
    simp only [hbundles, get?_empty, hhead]
    constructor
    · rintro ⟨row, ⟨⟩⟩
    · omega
  · simp [hanswers, hhead]
  · exact { current := by simp [hcurrent], revisions := by simp [hbundles]
            authoring := by simp [hauthoring] }
  · simp [hbundles]
  · simp [hpending]

theorem Inv.answered (h : Inv L I s) (hanswer : answer.revision? = none) :
    Inv L I { s with answers := s.answers ++ [answer] } :=
  { h with committed := by simp [hanswer, h.committed] }

theorem Inv.prepared (h : Inv L I s)
    (hp : ∀ p, outcome = .ok (.publication p) → p.Follows) : Inv L I (s.prepared outcome) := by
  unfold Sys.prepared
  split
  case h_1 p =>
    refine { h with pending := ?_ }
    intro p' hm
    rcases List.mem_append.mp hm with hm | hm
    · exact h.pending p' hm
    · cases List.mem_singleton.mp hm
      exact hp p rfl
  · exact h.answered rfl
  · exact h.answered rfl

theorem Commits.head_eq (hc : Commits L I t p outcome) (hp : p.Follows) :
    p.revision = t.head + 1 ∧ outcome.1.head = t.head + 1 := by
  have hnext : p.revision = t.head + 1 := by rw [hp, checkHead_ok hc.head]
  exact ⟨hnext, by simp [Tables.head, hc.current, hnext]⟩

theorem Inv.commits (h : Inv L I s) (hc : Commits L I s.tables p outcome) (hp : p.Follows)
    (hkeeps : ∀ k tree, s.disk.revisions.get? k = some tree → outcome.2.1.revisions.get? k = some tree) :
    Inv L I (s.published place outcome) := by
  obtain ⟨hnext, hhead⟩ := hc.head_eq hp
  obtain ⟨row, hbundles, hconversation, hstored⟩ := hc.row
  obtain ⟨c, hc₀⟩ := h.owner
  have howned := hc₀.of_fixed h.no_rows hc.owner
  have hget : ∀ k row', outcome.1.bundles.get? k = some row' ↔
      k = p.revision ∧ row = row' ∨ k ≠ p.revision ∧ s.tables.bundles.get? k = some row' := by
    intro k row'
    rw [hbundles, get?_put]
    by_cases hk : p.revision = k
    · simp [hk]
    · simp [hk, Ne.symm hk]
  refine { rows := ?_, committed := ?_, owner := ⟨p.conversation_id, ?_⟩, stored := ?_
           pending := fun p' hm => h.pending p' (mem_of_mem_eraseIdx hm) }
  · intro k
    show (∃ row', outcome.1.bundles.get? k = some row') ↔ 1 ≤ k ∧ k ≤ outcome.1.head
    have hrows := h.rows k
    simp only [hget, hhead]
    constructor
    · rintro ⟨row', ⟨rfl, -⟩ | ⟨-, hk⟩⟩
      · omega
      · have hbound := hrows.mp ⟨row', hk⟩
        omega
    · intro hbound
      by_cases hk : k = p.revision
      · exact ⟨row, .inl ⟨hk, rfl⟩⟩
      · obtain ⟨row', hrow'⟩ := hrows.mpr (by omega)
        exact ⟨row', .inr ⟨hk, hrow'⟩⟩
  · show (s.answers ++ [outcome.2.2]).filterMap Answer.revision? = range' 1 outcome.1.head
    simp [hc.answer, h.committed, hhead, hnext, range'_concat, Nat.add_comm 1]
  · refine { current := ?_, revisions := ?_, authoring := ?_ }
    · intro row' hrow'
      have hcurrent := hc.current.symm.trans hrow'
      cases hcurrent
      rfl
    · intro k row' hrow'
      rcases (hget k row').mp hrow' with ⟨-, rfl⟩ | ⟨-, hk⟩
      · exact hconversation
      · exact howned.revisions k row' hk
    · intro k a ha
      exact howned.authoring k a (hc.authoring ▸ ha)
  · intro k row' hrow'
    rcases (hget k row').mp hrow' with ⟨rfl, rfl⟩ | ⟨-, hk⟩
    · exact hstored
    · have hs := h.stored k row' hk
      obtain ⟨tree, htree, -⟩ := hs.verifies
      exact hs.frame ((hkeeps k tree htree).trans htree.symm)

theorem Inv.published (h : Inv L I s) (hp : p ∈ s.pending) :
    Inv L I (s.published place (publish L I w s.tables s.disk p fault)) := by
  have hkeeps : ∀ k tree, s.disk.revisions.get? k = some tree →
      (publish L I w s.tables s.disk p fault).2.1.revisions.get? k = some tree :=
    fun k tree hk => publish_keeps hk
  rcases publish_cases L I w s.tables s.disk p fault with hc | ⟨htables, hanswer⟩
  · exact h.commits hc (h.pending p hp) hkeeps
  · refine { rows := ?_, committed := ?_, owner := ?_, stored := ?_
             pending := fun p' hm => h.pending p' (mem_of_mem_eraseIdx hm) }
    · simpa [Sys.published, htables] using h.rows
    · simpa [Sys.published, htables, hanswer] using h.committed
    · simpa [Sys.published, htables] using h.owner
    · intro k row hk
      have hs := h.stored k row (by simpa [Sys.published, htables] using hk)
      obtain ⟨tree, htree, -⟩ := hs.verifies
      exact hs.frame ((hkeeps k tree htree).trans htree.symm)

theorem Inv.filed (h : Inv L I s) (hf : Filed s.tables c t') : Inv L I { s with tables := t' } := by
  have hhead : t'.head = s.tables.head := by rw [Tables.head, hf.current, Tables.head]
  obtain ⟨item, hitem, hauthoring⟩ := hf.authoring
  obtain ⟨c₀, hc₀⟩ := h.owner
  have howned := hc₀.of_fixed h.no_rows hf.owner
  refine { h with rows := ?_, committed := ?_, owner := ⟨c, ?_⟩, stored := ?_ }
  · simpa [hf.bundles, hhead] using h.rows
  · simpa [hhead] using h.committed
  · refine { current := ?_, revisions := ?_, authoring := ?_ }
    · simpa [hf.current] using howned.current
    · simpa [hf.bundles] using howned.revisions
    · intro k a ha
      simp only [hauthoring, get?_put] at ha
      split at ha
      · cases ha
        exact hitem
      · exact howned.authoring k a ha
  · simpa [hf.bundles] using h.stored

theorem Inv.authored (h : Inv L I s)
    (ho : ∀ t' answer, outcome = .ok (t', answer) → (t' = s.tables ∨ Filed s.tables c t') ∧
      answer.revision? = none) : Inv L I (s.authored outcome interrupted) := by
  unfold Sys.authored
  split
  · exact h.answered rfl
  · exact h.answered rfl
  case h_3 t' answer =>
    obtain ⟨hfiled, hanswer⟩ := ho t' answer rfl
    rcases hfiled with rfl | hfiled
    · exact h.answered hanswer
    · exact (h.filed hfiled).answered hanswer

theorem inv_step (s : Sys) (a : Action) (h : Inv L I s) (ha : Untouched s a) : Inv L I (step L I s a) := by
  cases a with
  | create w q => exact h.prepared fun p hp => createBundle_ok hp
  | revise w expected_revision q => exact h.prepared fun p hp => reviseBundle_ok hp
  | edit w expected_revision q => exact h.prepared fun p hp => edit_ok hp
  | publish w place fault =>
    simp only [step]
    split
    · exact h
    case h_2 p hp => exact h.published (mem_of_getElem? hp)
  | authoring w a interrupted =>
    exact h.authored fun t' answer ho => ⟨(author_ok ho).1, (author_ok ho).2.1⟩
  | receipt key row => exact { h with owner := ⟨h.owner.choose, { h.owner.choose_spec with }⟩ }
  | outside disk => exact { h with stored := fun k row hk => (h.stored k row hk).frame (ha k row hk) }

-- What is committed stays

/-- The committed records of one state and their directories are those of another. -/
structure Keeps (s s' : Sys) : Prop where
  records : ∀ k row, s.tables.bundles.get? k = some row → s'.tables.bundles.get? k = some row
  directories : ∀ k row, s.tables.bundles.get? k = some row → s'.disk.revisions.get? k = s.disk.revisions.get? k

theorem Keeps.refl : Keeps s s := ⟨fun _ _ h => h, fun _ _ _ => rfl⟩

theorem Keeps.trans (h : Keeps s s') (h' : Keeps s' s'') : Keeps s s'' where
  records k row hk := h'.records k row (h.records k row hk)
  directories k row hk := (h'.directories k row (h.records k row hk)).trans (h.directories k row hk)

theorem Keeps.of_eq (htables : s'.tables.bundles = s.tables.bundles) (hdisk : s'.disk = s.disk) : Keeps s s' where
  records k row hk := htables ▸ hk
  directories k row _ := by rw [hdisk]

theorem Sys.prepared_tables (s : Sys) (outcome : Chk Prepared) :
    (s.prepared outcome).tables = s.tables ∧ (s.prepared outcome).disk = s.disk := by
  unfold Sys.prepared
  split <;> exact ⟨rfl, rfl⟩

theorem keeps_published (h : Inv L I s) :
    Keeps s (s.published place (publish L I w s.tables s.disk p fault)) where
  records k row hk := by
    rcases publish_cases L I w s.tables s.disk p fault with hc | ⟨htables, -⟩
    · obtain ⟨row', hbundles, -⟩ := hc.row
      have hne : p.revision ≠ k := by
        rintro rfl
        simp [hc.fresh] at hk
      simpa [Sys.published, hbundles, get?_put, hne] using hk
    · simpa [Sys.published, htables] using hk
  directories k row hk := by
    obtain ⟨tree, htree, -⟩ := (h.stored k row hk).verifies
    exact (publish_keeps htree).trans htree.symm

theorem keeps_authored (ho : ∀ t' answer, outcome = .ok (t', answer) → t' = s.tables ∨ Filed s.tables c t') :
    Keeps s (s.authored outcome interrupted) := by
  unfold Sys.authored
  split
  · exact .of_eq rfl rfl
  · exact .of_eq rfl rfl
  case h_3 t' answer =>
    rcases ho t' answer rfl with rfl | hfiled
    · exact .of_eq rfl rfl
    · exact .of_eq hfiled.bundles rfl

theorem keeps_step (s : Sys) (a : Action) (h : Inv L I s) (ha : Untouched s a) : Keeps s (step L I s a) := by
  cases a with
  | create w q =>
    obtain ⟨htables, hdisk⟩ := s.prepared_tables (createBundle L I w q)
    exact .of_eq (congrArg Tables.bundles htables) hdisk
  | revise w expected_revision q =>
    obtain ⟨htables, hdisk⟩ := s.prepared_tables (reviseBundle L I w s.tables expected_revision q)
    exact .of_eq (congrArg Tables.bundles htables) hdisk
  | edit w expected_revision q =>
    obtain ⟨htables, hdisk⟩ := s.prepared_tables (edit L I w s.tables s.disk expected_revision q)
    exact .of_eq (congrArg Tables.bundles htables) hdisk
  | publish w place fault =>
    simp only [step]
    split
    · exact .refl
    · exact keeps_published h
  | authoring w a interrupted => exact keeps_authored fun t' answer ho => (author_ok ho).1
  | receipt key row => exact .of_eq rfl rfl
  | outside disk => exact ⟨fun _ _ hk => hk, ha⟩

-- A command that fails

def Fails (s s' : Sys) : Prop := ∃ failure, s'.answers = s.answers ++ [.failed failure]

theorem fails_tables (h : Fails s (step L I s a)) : (step L I s a).tables = s.tables := by
  obtain ⟨failure, h⟩ := h
  cases a with
  | create w q | revise w expected_revision q | edit w expected_revision q => exact (s.prepared_tables _).1
  | publish w place fault =>
    simp only [step] at h ⊢
    split at h
    · simp at h
    case h_2 p _ =>
      rcases publish_cases L I w s.tables s.disk p fault with hc | ⟨htables, -⟩
      · have hanswer := hc.answer
        simp only [Sys.published, append_cancel_left_eq, List.cons.injEq, and_true] at h
        simp [h, Answer.revision?] at hanswer
      · exact htables
  | authoring w a interrupted =>
    simp only [step, Sys.authored] at h ⊢
    split at h
    · rfl
    · rfl
    case h_3 t' answer ho =>
      simp only [append_cancel_left_eq, List.cons.injEq, and_true] at h
      exact absurd h ((author_ok ho).2.2 failure)
  | receipt key row | outside disk => simp [step] at h

-- Runs

structure Published (L : Library) (I : Identity) (s : Sys) : Prop where
  gapless : ∀ k, (∃ row, s.tables.bundles.get? k = some row) ↔ 1 ≤ k ∧ k ≤ s.tables.head
  /-- The revisions that commands were answered to have committed, in that order. -/
  committed_once : s.answers.filterMap Answer.revision? = range' 1 s.tables.head
  single_owner : ∃ c, s.tables.OwnedBy c ∧
    ∀ k row, s.tables.bundles.get? k = some row → row.record.conversation_id = c
  verified : ∀ k row, s.tables.bundles.get? k = some row → ∀ w principal disk, owned L I w principal = .ok () →
      disk.revisions.get? k = s.disk.revisions.get? k →
      ∃ b c, verifiedBundle L I w s.tables disk k principal = .ok (row.record, b, c)

theorem readRecord_stored (hrow : t.bundles.get? k = some row) (h : Stored L I disk k row) :
    readRecord L I t k = .ok row.record := by
  simp only [readRecord, bind_ok, need_ok, ensure_ok, pure_ok, decide_eq_true_eq]
  exact ⟨row, hrow, row.digest, h.digest, (), rfl, (), by simp [h.project, h.bundle, h.revision], rfl⟩

theorem Stored.verifiedBundle (h : Stored L I disk k row) (hrow : t.bundles.get? k = some row)
    (howned : owned L I w principal = .ok ()) :
    ∃ b c, verifiedBundle L I w t disk k principal = .ok (row.record, b, c) := by
  obtain ⟨tree, htree, b, c, hverify⟩ := h.verifies
  refine ⟨b, c, ?_⟩
  simp only [Bundles.verifiedBundle, bind_ok, need_ok]
  exact ⟨(), howned, row.record, readRecord_stored hrow h, tree, htree, (b, c), hverify, rfl⟩

theorem Inv.holds (h : Inv L I s) : Published L I s where
  gapless := h.rows
  committed_once := h.committed
  single_owner := by
    obtain ⟨c, hc⟩ := h.owner
    refine ⟨c, hc, fun k row hk => ?_⟩
    rw [(h.stored k row hk).conversation]
    exact hc.revisions k row hk
  verified k row hk w principal disk howned hdisk := ((h.stored k row hk).frame hdisk).verifiedBundle hk howned

theorem inv_reach (h : (system L I).Reach Untouched s) : Inv L I s := h.invariant (fun _ => inv_initial) inv_step

theorem keeps_path (hs : Inv L I s) (h : (system L I).Path Untouched s s') : Keeps s s' := by
  have hboth : Inv L I s' ∧ Keeps s s' := by
    apply h.keeps (I := fun t => Inv L I t ∧ Keeps s t) ?_ ⟨hs, .refl⟩
    rintro t a ⟨ht, hkeeps⟩ ha
    exact ⟨inv_step t a ht ha, hkeeps.trans (keeps_step t a ht ha)⟩
  exact hboth.2

/-- Published revisions are gapless, immutable and of one owner, in every run in which
nobody else writes into a committed directory. -/
theorem revisions_published (h : (system L I).Reach Untouched s) :
    Published L I s ∧ (∀ s', (system L I).Path Untouched s s' → Keeps s s') ∧
      ∀ a, Fails s (step L I s a) → (step L I s a).tables = s.tables ∧
        ∀ k row, s.tables.bundles.get? k = some row →
          (step L I s a).disk.revisions.get? k = s.disk.revisions.get? k := by
  have hs := inv_reach h
  refine ⟨hs.holds, fun s' hp => keeps_path hs hp, fun a hf => ⟨fails_tables hf, ?_⟩⟩
  intro k row hk
  have ha : Untouched s a := by
    cases a with
    | outside disk => obtain ⟨failure, hf⟩ := hf; simp [step] at hf
    | _ => trivial
  exact (keeps_step s a hs ha).directories k row hk

def sampleDigest : String := "dddddddddddddddddddddddddddddddddddddddddddddddddddddddddddddddd"

/-- Digests of the right length, ASCII text, one document and one manifest to parse. -/
def sampleLibrary : Library where
  toLibrary := { Compiler.sampleLibrary with contentDigest := fun _ => some sampleDigest }
  nfc s := s
  isprintable _ := true
  encode s := some (s.toList.map fun c => UInt8.ofNat c.toNat)
  decode raw := some (String.ofList (raw.map fun b => Char.ofNat b.toNat))
  byteDigest _ := sampleDigest
  canonicalJson _ := some "m"
  parseJson _ := some (Compiler.ofMap [("schema_version", .text manifestSchemaVersion),
    ("bundle_id", .text "b"), ("revision", .int 1), ("delivery_kind", .text "pr"),
    ("files", .list [fileEntry workflowPath sampleDigest 1]),
    ("references", Compiler.ofMap [("workflow_id", .text "w"), ("workflow_revision", .int 1),
      ("input_contract_ref", .text "text@1"), ("roles", Compiler.ofMap []),
      ("execution_kinds", .ofTexts ["publish_pr@1"]),
      ("contracts", .ofTexts ["repair-patch@1", "text@1"])]),
    ("bundle_digest", .text sampleDigest)])
  loadYaml _ _ := .ok Compiler.publishing
  safeDump _ := none
  identifier s := s ≠ ""

def sampleIdentity : Identity := ⟨"p", "b"⟩

def sampleWorld : World := ⟨some "u", fun _ => some "p", none, .int 0⟩

def sampleRequest (command_key : String) : Request where
  conversation_id := "c"
  payload := [(.text "files", .list [Compiler.ofMap [("path", .text workflowPath),
    ("content", .text "w")]]), (.text "delivery_kind", .text "pr")]
  principal := "u"
  command_key

/-- A publication that stops when its directory is in place, and one that adopts it. -/
def adopted : Sys := (system sampleLibrary sampleIdentity).run
  ⟨⟨.empty, none, .empty, .empty, .empty⟩, ⟨.empty, .empty⟩, [], []⟩
  [.create sampleWorld (sampleRequest "k"), .publish sampleWorld 0 (some .later),
    .create sampleWorld (sampleRequest "l"), .publish sampleWorld 0 none]

theorem revisions_published_adopted : adopted.tables.head = 1 ∧
    Published sampleLibrary sampleIdentity adopted ∧
    (∀ s', (system sampleLibrary sampleIdentity).Path Untouched adopted s' → Keeps adopted s') ∧
      ∀ a, Fails adopted (step sampleLibrary sampleIdentity adopted a) →
        (step sampleLibrary sampleIdentity adopted a).tables = adopted.tables ∧
        ∀ k row, adopted.tables.bundles.get? k = some row →
          (step sampleLibrary sampleIdentity adopted a).disk.revisions.get? k =
            adopted.disk.revisions.get? k := by
  have hhead : adopted.tables.head = 1 := by decide +kernel
  have hreach : (system sampleLibrary sampleIdentity).Reach Untouched adopted :=
    .of_run ⟨rfl, rfl, rfl, rfl, rfl, rfl⟩ ⟨trivial, trivial, trivial, trivial, trivial⟩
  exact ⟨hhead, revisions_published hreach⟩

end Karajan.Bundles
