import Karajan.Bundles.Commands

/-!
# What is committed reads back

A revision is read from its directory and compiled before its row is inserted.
Reading a directory depends on nothing but what is in it, so the same reading
succeeds for as long as the directory is what it was, and no command writes into
a directory that exists.
-/

namespace Karajan.Bundles

open List Dict Check
open Compiler (ofMap CompiledWorkflow)
open Scheduling (sorted)

-- Reading a directory

open BundleFile (path)

theorem readFile_paths (h : readFile L tree recorded done relative = .ok done') :
    done'.1.map path = done.1.map path ++ [relative] := by
  simp only [readFile, bind_ok, ensure_ok, pure_ok] at h
  obtain ⟨raw, -, -, -, -, -, rfl⟩ := h
  simp

theorem readFiles_paths {paths : List String} (h : paths.foldlM (readFile L tree recorded) done = .ok done') :
    done'.1.map path = done.1.map path ++ paths := by
  induction paths generalizing done with
  | nil =>
    simp only [foldlM_nil, pure_ok] at h
    simp [h]
  | cons relative paths ih =>
    simp only [foldlM_cons, bind_ok] at h
    obtain ⟨next, hnext, hrest⟩ := h
    simp [ih hrest, readFile_paths hnext]

theorem readDirectory_nodup (h : readDirectory L tree bundle_id revision project_id conversation_id = .ok b) :
    (b.files.map path).Nodup := by
  simp only [readDirectory, bind_ok, ensure_ok, pure_ok] at h
  obtain ⟨raw, -, document, -, manifest, -, recorded, -, observed, -, -, -, ⟨files, total⟩, hread,
    digest, -, -, -, rfl⟩ := h
  have hpaths := readFiles_paths hread
  simp only [map_nil, nil_append] at hpaths
  show (files.map path).Nodup
  rw [hpaths, sorted, (perm_insertionSort _ _).nodup_iff]
  exact recorded.nodup

-- Recording what was read

/-- The stored row of a revision describes what is in its directory. -/
structure Stored (L : Library) (I : Identity) (disk : Disk) (k : Nat) (row : BundleRow) :
    Prop where
  digest : contentDigest L (ofMap row.record.body) = .ok row.digest
  project : row.record.project_id = I.project_id
  bundle : row.record.bundle_id = I.bundle_id
  revision : row.record.revision = k
  conversation : row.record.conversation_id = row.conversation_id
  verifies : ∃ tree, disk.revisions.get? k = some tree ∧
    ∃ b c, verifyRecord L I tree row.record = .ok (b, c)

theorem Stored.frame (h : Stored L I disk k row)
    (hdisk : disk'.revisions.get? k = disk.revisions.get? k) : Stored L I disk' k row :=
  { h with verifies := hdisk ▸ h.verifies }

section
variable {r : Record} {files : List BundleFile} (hfiles : r.files = files.map RecordedFile.of)
  (hnodup : (files.map path).Nodup) (hm : file ∈ files)
include hfiles hnodup hm

theorem fileAt_recorded : r.fileAt.get? file.path = some (.of file) := by
  have hkeys : ((files.map fun file => (file.path, RecordedFile.of file)).map Prod.fst).Nodup := by
    simpa [map_map, Function.comp_def] using hnodup
  rw [Record.fileAt, hfiles, map_map]
  apply (get?_ofList hkeys).trans
  apply (lookup_eq_some hkeys).mpr
  exact mem_map_of_mem (f := fun file => (file.path, RecordedFile.of file)) hm

theorem checkRecordedFile_recorded : checkRecordedFile r file = .ok () := by
  simp [checkRecordedFile, ensure_ok, fileAt_recorded hfiles hnodup hm, RecordedFile.of]

end

theorem verifyRecord_recorded
    (hread : readDirectory L tree I.bundle_id r.revision I.project_id r.conversation_id = .ok b)
    (hfiles : r.files = b.files.map RecordedFile.of) (hbundle : r.bundle_digest = b.bundle_digest)
    (hmanifest : r.manifest_file_digest = b.manifest_file_digest)
    (hcompile : compileBundle L b r.binding_index = .ok c) (hdigest : compiledDigest L c = .ok r.compiled_digest)
    (hcompiler : r.compiler_revision = Compiler.compilerRevision) : verifyRecord L I tree r = .ok (b, c) := by
  have hnodup := readDirectory_nodup hread
  have hfile : ∀ file ∈ b.files, checkRecordedFile r file = .ok () := fun file hm =>
    checkRecordedFile_recorded hfiles hnodup hm
  have heach : each (checkRecordedFile r) b.files = .ok (b.files.map fun _ => ()) := each_map hfile
  have hinventory : (r.files.all fun file => (b.files.map path).contains file.path) &&
      b.files.all fun file => r.fileAt.contains file.path := by
    simp only [Bool.and_eq_true, all_eq_true, hfiles]
    constructor
    · intro file hm
      obtain ⟨source, hs, rfl⟩ := List.mem_map.mp hm
      simpa [RecordedFile.of] using ⟨source, hs, rfl⟩
    · intro file hm
      exact contains_of_get? (fileAt_recorded hfiles hnodup hm)
  simp only [verifyRecord, bind_ok, ensure_ok, pure_ok, decide_eq_true_eq]
  exact ⟨b, hread, (), hbundle.symm, (), hmanifest.symm, (), hinventory, _, heach, c, hcompile, _,
    hdigest, (), rfl, (), hcompiler.symm, rfl⟩

theorem recordVerified_ok (h : recordVerified L I w p verified = .ok row)
    (hread : readDirectory L tree I.bundle_id p.revision I.project_id p.conversation_id =
      .ok verified) (hdisk : disk.revisions.get? p.revision = some tree) :
    Stored L I disk p.revision row ∧ row.conversation_id = p.conversation_id := by
  simp only [recordVerified, bind_ok, ensure_ok, pure_ok, decide_eq_true_eq] at h
  obtain ⟨recompiled, hcompile, digest, hdigest, published, -, -, rfl, record_digest, hrecord, rfl⟩ := h
  have hverify : verifyRecord L I tree (revisionRecord I w p verified digest) = .ok (verified, recompiled) :=
    verifyRecord_recorded hread rfl rfl rfl hcompile hdigest rfl
  exact ⟨{ digest := hrecord, project := rfl, bundle := rfl, revision := rfl, conversation := rfl
           verifies := ⟨tree, hdisk, _, _, hverify⟩ }, rfl⟩

-- Writing a revision

theorem materialize_keeps (h : disk.revisions.get? k = some tree) :
    (materialize L I disk p manifest fault).1.revisions.get? k = some tree := by
  unfold materialize
  split
  · exact h
  · exact h
  · exact h
  case h_4 habsent _ _ =>
    have hne : p.revision ≠ k := by
      rintro rfl
      simp [h] at habsent
    simpa [get?_put, hne] using h

theorem reconcileMaterialized_ok (h : reconcileMaterialized L I tree p = .ok verified) :
    readDirectory L tree I.bundle_id p.revision I.project_id p.conversation_id = .ok verified := by
  simp only [reconcileMaterialized, bind_ok, ensure_ok, pure_ok] at h
  obtain ⟨b, hread, -, -, rfl⟩ := h
  exact hread

theorem materialize_ok (h : (materialize L I disk p manifest fault).2 = .ok verified) :
    ∃ tree, (materialize L I disk p manifest fault).1.revisions.get? p.revision = some tree ∧
      readDirectory L tree I.bundle_id p.revision I.project_id p.conversation_id = .ok verified := by
  unfold materialize at h ⊢
  split at h
  case h_1 tree hthere => exact ⟨tree, hthere, reconcileMaterialized_ok h⟩
  · cases h
  · cases h
  · exact ⟨_, get?_put_self, h⟩

theorem writeRevision_keeps (h : disk.revisions.get? k = some tree) :
    (writeRevision L I w disk p fault).1.revisions.get? k = some tree := by
  unfold writeRevision
  split
  · exact h
  · exact materialize_keeps h

theorem writeRevision_ok (h : (writeRevision L I w disk p fault).2 = .ok row) :
    Stored L I (writeRevision L I w disk p fault).1 p.revision row ∧
      row.conversation_id = p.conversation_id := by
  unfold writeRevision at h ⊢
  split at h
  · cases h
  case h_2 manifest _ =>
    obtain ⟨verified, hverified, hrow⟩ := bind_ok.mp h
    obtain ⟨tree, hdisk, hread⟩ := materialize_ok hverified
    exact recordVerified_ok hrow hread hdisk

-- One publishing transaction

def Answer.revision? : Answer → Option Nat
  | .published revision _ => some revision
  | _ => none

/-- What a transaction that commits a revision found and leaves. -/
structure Commits (L : Library) (I : Identity) (t : Tables) (p : Publication)
    (outcome : Tables × Disk × Answer) : Prop where
  owner : requireFixedConversation t p.conversation_id = .ok ()
  head : checkHead t p.expected_revision = .ok ()
  fresh : t.bundles.get? p.revision = none
  row : ∃ row, outcome.1.bundles = t.bundles.put p.revision row ∧
    row.conversation_id = p.conversation_id ∧ Stored L I outcome.2.1 p.revision row
  current : outcome.1.current = some ⟨p.conversation_id, p.revision⟩
  authoring : outcome.1.authoring = t.authoring
  answer : outcome.2.2.revision? = some p.revision

theorem insertRows_ok (h : insertRows L t p row = .ok (t', result)) :
    t.bundles.get? p.revision = none ∧ t'.bundles = t.bundles.put p.revision row ∧
      t'.current = some ⟨p.conversation_id, p.revision⟩ ∧ t'.authoring = t.authoring := by
  simp only [insertRows, bind_ok, ensure_ok, pair_ok, Bool.not_eq_true', contains_eq_false] at h
  obtain ⟨-, hfresh, files, -, spelled, -, -, -, rfl, -⟩ := h
  exact ⟨hfresh, rfl, rfl, rfl⟩

theorem admitPublication_ok (h : admitPublication L I w t p = .ok none) :
    requireFixedConversation t p.conversation_id = .ok () ∧
      checkHead t p.expected_revision = .ok () := by
  simp only [admitPublication, bind_ok] at h
  obtain ⟨-, -, replayed, -, h⟩ := h
  cases replayed with
  | some result => simp [pure_ok] at h
  | none =>
    obtain ⟨⟨⟩, hfixed, h⟩ := bind_ok.mp h
    obtain ⟨⟨⟩, hhead, -⟩ := bind_ok.mp h
    exact ⟨hfixed, hhead⟩

theorem publish_keeps (h : disk.revisions.get? k = some tree) :
    (publish L I w t disk p fault).2.1.revisions.get? k = some tree := by
  have hwrite : (writeRevision L I w disk p fault).1.revisions.get? k = some tree := writeRevision_keeps h
  unfold publish
  split
  · exact h
  · exact h
  · dsimp only; split <;> exact hwrite

theorem publish_cases (L : Library) (I : Identity) (w : World) (t : Tables) (disk : Disk)
    (p : Publication) (fault : Option Fault) : Commits L I t p (publish L I w t disk p fault) ∨
      (publish L I w t disk p fault).1 = t ∧
        (publish L I w t disk p fault).2.2.revision? = none := by
  unfold publish
  split
  · exact .inr ⟨rfl, rfl⟩
  · exact .inr ⟨rfl, rfl⟩
  case h_3 hadmitted =>
    dsimp only
    split
    · exact .inr ⟨rfl, rfl⟩
    · exact .inr ⟨rfl, rfl⟩
    case h_3 t' result hwritten =>
      obtain ⟨row, hrow, hinsert⟩ := bind_ok.mp hwritten
      obtain ⟨hfresh, hbundles, hcurrent, hauthoring⟩ := insertRows_ok hinsert
      obtain ⟨hstored, hconversation⟩ := writeRevision_ok hrow
      obtain ⟨howner, hhead⟩ := admitPublication_ok hadmitted
      exact .inl
        { owner := howner
          head := hhead
          fresh := hfresh
          row := ⟨row, hbundles, hconversation, hstored⟩
          current := hcurrent
          authoring := hauthoring
          answer := rfl }

end Karajan.Bundles
