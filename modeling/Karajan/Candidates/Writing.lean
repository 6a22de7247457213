import Karajan.Candidates.History
import Karajan.Lib.Paths

/-!
# What freezing a projection writes

The files of a candidate that was frozen from a projection are those that the
projection, the captured digests and the baseline give: the workspace has the
files of the baseline with the captured contents over them, and a manifest says
of each of them its mode, its digest and its size.
-/

namespace Karajan.Candidates

open List Check
open GitTree (Bytes)

-- Files by path

theorem sameFiles_iff : sameFiles a b = true ↔ ∀ path, a.get? path = b.get? path := by
  simp only [sameFiles, Bool.and_eq_true, all_eq_true, decide_eq_true_eq]
  constructor
  · rintro ⟨hab, hba⟩ path
    cases ha : a.get? path with
    | some file => exact (hab (path, file) (Dict.get?_eq_some.mp ha)).symm
    | none =>
      cases hb : b.get? path with
      | none => rfl
      | some file =>
        have hsome := hba (path, file) (Dict.get?_eq_some.mp hb)
        rw [ha] at hsome
        cases hsome
  · intro h
    constructor
    · rintro ⟨path, file⟩ he
      rw [← h path]
      exact Dict.get?_eq_some.mpr he
    · rintro ⟨path, file⟩ he
      rw [h path]
      exact Dict.get?_eq_some.mpr he

theorem files_perm {a b : Files} (h : ∀ path, a.get? path = b.get? path) : a.entries.Perm b.entries := by
  refine (perm_ext_iff_of_nodup (a.nodup.of_map _) (b.nodup.of_map _)).mpr ?_
  rintro ⟨path, file⟩
  rw [← Dict.get?_eq_some, ← Dict.get?_eq_some, h path]

section
def Manifest.paths (manifest : Manifest) : List String := manifest.map (·.path)

section
variable (h : (Manifest.paths manifest).Nodup)
include h

theorem Manifest.nodup_keys (f : ManifestEntry → α) :
    ((manifest.map fun entry => (entry.path, f entry)).map Prod.fst).Nodup := by
  simpa [Manifest.paths, Function.comp_def] using h

theorem Manifest.files_entries :
    (Manifest.files manifest).entries = manifest.map fun entry => (entry.path, entry.file) :=
  Dict.entries_ofList (Manifest.nodup_keys h _)

theorem Manifest.files_get : (Manifest.files manifest).get? path = some file ↔
      ∃ entry ∈ manifest, entry.path = path ∧ entry.file = file := by
  rw [Dict.get?_eq_some, Manifest.files_entries h]
  simp

end

theorem Manifest.nodup_of_length (h : manifest.length = (Manifest.files manifest).entries.length) :
    (Manifest.paths manifest).Nodup := by
  have hsub : (Manifest.files manifest).keys ⊆ Manifest.paths manifest := by
    intro path hpath
    simpa [Manifest.paths] using Dict.mem_keys_ofList.mp hpath
  have hback : Manifest.paths manifest ⊆ (Manifest.files manifest).keys := by
    intro path hpath
    exact Dict.mem_keys_ofList.mpr (by simpa [Manifest.paths] using hpath)
  have hlength : (Manifest.paths manifest).length ≤ (Manifest.files manifest).keys.length := by
    simp [Manifest.paths, Dict.keys, h]
  have hperm := (subperm_of_subset (Manifest.files manifest).nodup hsub).perm_of_length_le hlength
  exact hperm.nodup_iff.mp (Manifest.files manifest).nodup

end

-- Projections

theorem projectionRows_nodup (h : projectionRows lib seen rows = true) :
    (rows.map (·.path)).Nodup ∧ ∀ row ∈ rows, lib.casefold row.path ∉ seen := by
  induction rows generalizing seen with
  | nil => simp
  | cons row rows ih =>
    simp only [projectionRows, Bool.and_eq_true, Bool.not_eq_true', any_eq_false] at h
    obtain ⟨⟨-, hapart⟩, hrest⟩ := h
    obtain ⟨hnodup, hseen⟩ := ih hrest
    refine ⟨nodup_cons.mpr ⟨?_, hnodup⟩, ?_⟩
    · intro hmem
      obtain ⟨row', hrow', heq⟩ := mem_map.mp hmem
      refine hseen row' hrow' ?_
      rw [show row'.path = row.path from heq]
      exact mem_cons_self
    · intro row' hrow' hmem
      rcases mem_cons.mp hrow' with rfl | hrow'
      · exact hapart _ hmem (by simp [foldedConflict])
      · exact hseen row' hrow' (mem_cons_of_mem _ hmem)

theorem projection_files_ok (h : projection_files lib projection = some rows) : (rows.map (·.path)).Nodup := by
  simp only [projection_files, Option.ite_none_right_eq_some, Option.some.injEq] at h
  obtain ⟨⟨-, -, hrows⟩, rfl⟩ := h
  exact ((perm_insertionSort _ projection).map _).nodup_iff.mpr (projectionRows_nodup hrows).1

theorem sameSet_iff : sameSet a b = true ↔ ∀ x, x ∈ a ↔ x ∈ b := by
  simp only [sameSet, Bool.and_eq_true, all_eq_true, decide_eq_true_eq]
  exact ⟨fun h x => ⟨h.1 x, h.2 x⟩, fun h => ⟨fun x => (h x).mp, fun x => (h x).mpr⟩⟩

structure PreparedRow (lib : Library) (baseline : Baseline) (contents : Dict String Bytes)
    (row : ProjectionRow) (p : ManifestEntry × Bytes) : Prop where
  mem : p.1 ∈ baseline.manifest
  path : p.1.path = row.path
  sha256 : p.1.artifact.sha256 = row.sha256
  content : contents.get? row.path = some p.2
  readonly : row.writable = false → lib.sha256 p.2 = row.sha256
  size : p.2.length ≤ MAX_FILE_BYTES

theorem preparedRow_ok (h : preparedRow lib (Manifest.byPath baseline.manifest) contents row = .ok p) :
    PreparedRow lib baseline contents row p := by
  simp only [preparedRow, bind_ok, need_ok, ensure_ok, pure_ok, Bool.or_eq_true, decide_eq_true_eq] at h
  obtain ⟨original, horiginal, content, hcontent, -, hreadonly, -, hsize, rfl⟩ := h
  obtain ⟨hget, hsha⟩ := Option.filter_eq_some_iff.mp horiginal
  obtain ⟨entry, hentry, heq⟩ := mem_map.mp (Dict.mem_of_get?_ofList hget)
  simp only [Prod.mk.injEq] at heq
  obtain ⟨hpath, rfl⟩ := heq
  exact {
    mem := hentry
    path := hpath
    sha256 := by simpa using hsha
    content := hcontent
    readonly := fun hw => hreadonly.resolve_left (by simp [hw])
    size := hsize }

structure PreparedProjection (lib : Library) (projection : List ProjectionRow)
    (contents : Dict String Bytes) (baseline : Baseline) (allowed_paths : List String)
    (rows : List ProjectionRow) (prepared : List (ManifestEntry × Bytes)) : Prop where
  files : projection_files lib projection = some rows
  keys : ∀ path, path ∈ contents.keys ↔ path ∈ rows.map (·.path)
  allowed : sameSet allowed_paths (writablePaths rows) = true
  each_row : Forall₂ (PreparedRow lib baseline contents) rows prepared

theorem prepare_projection_ok
    (h : prepare_projection lib projection contents baseline allowed_paths = .ok prepared) :
    ∃ rows, PreparedProjection lib projection contents baseline allowed_paths rows prepared := by
  simp only [prepare_projection, bind_ok, need_ok, ensure_ok, pure_ok] at h
  obtain ⟨rows, hrows, -, -, -, hcontents, -, hallowed, prepared, hprepared, -, -, rfl⟩ := h
  exact ⟨rows, hrows, sameSet_iff.mp hcontents, hallowed,
    (each_forall₂.mp hprepared).imp fun _ _ => preparedRow_ok⟩

-- The scratch workspace

/-- A file of a manifest, with its bytes as the artifact directory has them. -/
structure Materialized (lib : Library) (objects : Directory) (file : ManifestEntry × Bytes) : Prop where
  path : relative_path lib file.1.path false = .ok ()
  kept : objects file.1.artifact.sha256 = .bytes file.2 true
  sha256 : lib.sha256 file.2 = file.1.artifact.sha256
  size : file.2.length = file.1.artifact.size

theorem materialization_content_ok (h : materialization_content lib objects reference = .ok content) :
    objects reference.sha256 = .bytes content true ∧ lib.sha256 content = reference.sha256 ∧
      content.length = reference.size := by
  simp only [materialization_content, bind_ok] at h
  obtain ⟨-, -, h⟩ := h
  split at h
  case h_1 content' hkept =>
    simp only [bind_ok, ensure_ok, pure_ok, Bool.and_eq_true, decide_eq_true_eq] at h
    obtain ⟨-, hsame, rfl⟩ := h
    exact ⟨hkept, hsame.2, hsame.1.2⟩
  · cases h
  · cases h
  · cases h

theorem materialized_ok (h : materialized lib objects n manifest = .ok files) :
    files.map Prod.fst = manifest ∧ ∀ file ∈ files, Materialized lib objects file := by
  induction manifest generalizing n files with
  | nil =>
    cases h
    simp
  | cons entry manifest ih =>
    simp only [materialized, bind_ok, ensure_ok, pure_ok] at h
    obtain ⟨u, hpath, content, hcontent, -, -, rest, hrest, rfl⟩ := h
    obtain ⟨hentries, hfiles⟩ := ih hrest
    refine ⟨by simp [hentries], ?_⟩
    intro file hfile
    rcases mem_cons.mp hfile with rfl | hfile
    · obtain ⟨hkept, hsha, hsize⟩ := materialization_content_ok hcontent
      exact ⟨hpath, hkept, hsha, hsize⟩
    · exact hfiles file hfile

theorem Apart.ne (h : Apart a b) : a ≠ b := by
  rintro rfl
  exact h.1 (prefix_refl _)

theorem materialize_ok (h : materialize lib objects manifest = .ok files) :
    files.map Prod.fst = manifest ∧ (∀ file ∈ files, Materialized lib objects file) ∧
      (Manifest.paths manifest).Nodup := by
  simp only [materialize, bind_ok, ensure_ok, pure_ok, decide_eq_true_eq] at h
  obtain ⟨-, -, files, hfiles, -, hapart, rfl⟩ := h
  obtain ⟨hentries, hmaterialized⟩ := materialized_ok hfiles
  exact ⟨hentries, hmaterialized, hapart.imp Apart.ne⟩

def WorkspaceEntry.file? (entry : WorkspaceEntry) : Option WorkspaceFile :=
  match entry.kind with
  | .file content executable => some ⟨entry.path, content, executable⟩
  | .directory | .link | .special => none

def sizeOf (files : List WorkspaceFile) : Nat := (files.map (·.content.length)).sum

theorem collect_ok (h : collect n total entries = .ok files) :
    files = entries.filterMap (·.file?) ∧ (total ≤ MAX_SNAPSHOT_BYTES →
      total + sizeOf files ≤ MAX_SNAPSHOT_BYTES) := by
  induction entries generalizing n total files with
  | nil =>
    cases h
    simp [sizeOf]
  | cons entry entries ih =>
    obtain ⟨path, kind⟩ := entry
    cases kind with
    | directory =>
      simp only [collect, bind_ok] at h
      obtain ⟨-, -, h⟩ := h
      exact ih h
    | link | special => simp [collect, bind_ok] at h
    | file content executable =>
      simp only [collect, bind_ok, ensure_ok, pure_ok, Bool.and_eq_true, decide_eq_true_eq] at h
      obtain ⟨-, -, -, hsize, rest, hrest, rfl⟩ := h
      obtain ⟨hfiles, htotal⟩ := ih hrest
      refine ⟨?_, fun _ => ?_⟩
      · rw [hfiles]
        rfl
      have hle := htotal hsize.2
      simp only [sizeOf, map_cons, sum_cons] at hle ⊢
      omega

theorem relative_path_parts (h : relative_path lib path false = .ok u) :
    ∀ part ∈ parts path, lib.lower part ≠ ".git" := by
  simp only [relative_path, ensure_ok, Bool.false_and, Bool.false_eq_true, if_false,
    Bool.and_eq_true, all_eq_true, partAllowed, decide_eq_true_eq] at h
  exact fun part hpart => (h.2 part hpart).1.2

theorem scratch_files (h : ∀ file ∈ files, relative_path lib file.path false = .ok ()) :
    (walked lib (scratchEntries files)).filterMap (·.file?) = files := by
  have hkept : ∀ entry ∈ files.map fun file =>
      (⟨file.path, .file file.content file.executable⟩ : WorkspaceEntry),
      ((parts entry.path).head?.all (lib.lower · ≠ ".git")) = true := by
    intro entry hentry
    obtain ⟨file, hfile, rfl⟩ := mem_map.mp hentry
    cases hhead : (parts file.path).head? with
    | none => rfl
    | some part => simpa using relative_path_parts (h file hfile) part (mem_of_mem_head? hhead)
  have hnone : ∀ l : List WorkspaceEntry, (∀ entry ∈ l, entry.kind = .directory) →
      l.filterMap (·.file?) = [] := by
    intro l hl
    simp only [filterMap_eq_nil_iff]
    intro entry hentry
    simp [WorkspaceEntry.file?, hl entry hentry]
  simp only [walked, scratchEntries, filter_append, filterMap_append]
  rw [hnone, filter_eq_self.mpr hkept, nil_append, filterMap_map]
  · exact (filterMap_congr fun file _ => rfl).trans filterMap_some
  · intro entry hentry
    obtain ⟨directory, -, rfl⟩ := mem_map.mp (mem_filter.mp hentry).1
    rfl

-- The manifest

def artifactOf (lib : Library) (content : Bytes) : Artifact := ⟨lib.sha256 content, content.length⟩

theorem artifact_ok (h : artifact lib objects content = .ok reference) :
    reference = artifactOf lib content ∧ (∀ kept unshared,
      objects (lib.sha256 content) = .bytes kept unshared → kept.length = content.length) := by
  simp only [artifact, bind_ok, ensure_ok, pure_ok, Bool.or_eq_true, Bool.not_eq_true'] at h
  obtain ⟨-, -, -, hkept, rfl⟩ := h
  refine ⟨rfl, fun kept unshared hobjects => ?_⟩
  rcases hkept with hkept | hkept
  · simp [hobjects, Held.exists] at hkept
  · simp only [available, hobjects, Bool.and_eq_true, decide_eq_true_eq] at hkept
    exact hkept.1

structure Entered (lib : Library) (host : Host) (modes : Dict String Mode) (file : WorkspaceFile)
    (entry : ManifestEntry) : Prop where
  path : entry.path = file.path
  filed : entry.file = (fileMode host modes file, artifactOf lib file.content)
  kept : ∀ kept unshared, host.objects (lib.sha256 file.content) = .bytes kept unshared →
    kept.length = file.content.length

theorem manifestEntry_ok (h : manifestEntry lib host modes file = .ok entry) :
    Entered lib host modes file entry := by
  simp only [manifestEntry, bind_ok, pure_ok] at h
  obtain ⟨-, -, oid, -, reference, hreference, rfl⟩ := h
  obtain ⟨rfl, hkept⟩ := artifact_ok hreference
  exact ⟨rfl, rfl, hkept⟩

def modesOf (baseline : Baseline) : Dict String Mode :=
  .ofList (baseline.manifest.map fun entry => (entry.path, entry.mode))

structure Captured (lib : Library) (host : Host) (baseline : Baseline) (spec : Freeze)
    (workspace : List WorkspaceEntry) (found : Capture) : Prop where
  request : found.request = spec
  repository : found.identity.repository_identity = baseline.repository_identity
  base : found.identity.base_sha = baseline.base_sha
  input : found.identity.input_sha256 = spec.input_sha256
  tree : tree host found.manifest = .ok found.identity.tree_sha
  files : ∃ files, files.Perm ((walked lib workspace).filterMap (·.file?)) ∧
    sizeOf files ≤ MAX_SNAPSHOT_BYTES ∧
    Forall₂ (Entered lib host (modesOf baseline)) files found.manifest

theorem sizeOf_perm (h : files.Perm files') : sizeOf files = sizeOf files' := (h.map _).sum_eq

theorem captured_ok (h : captured lib host baseline spec workspace = .ok found) :
    Captured lib host baseline spec workspace found := by
  simp only [captured, bind_ok, pure_ok] at h
  obtain ⟨files, hfiles, manifest, hmanifest, -, -, tree_sha, htree, rfl⟩ := h
  obtain ⟨rfl, hsize⟩ := collect_ok hfiles
  have hperm := perm_insertionSort (fun a b : WorkspaceFile => parts a.path ≤ parts b.path)
    ((walked lib workspace).filterMap (·.file?))
  refine ⟨rfl, rfl, rfl, rfl, htree, _, hperm, ?_, ?_⟩
  · rw [sizeOf_perm hperm]
    simpa using hsize (Nat.zero_le _)
  · exact (each_forall₂.mp hmanifest).imp fun _ _ => manifestEntry_ok

-- What was expected

theorem expectRows {rows : List ProjectionRow} {captured : Dict String Artifact}
    (hnodup : (rows.map (·.path)).Nodup)
    (hrows : ∀ row ∈ rows, ∃ original after, files.get? row.path = some original ∧
      captured.get? row.path = some after ∧ original.2.sha256 = row.sha256 ∧
      (row.writable = true ∨ after = original.2)) :
    ∃ expected, rows.foldlM (expectRow captured) files = .ok expected ∧
      ∀ path, expected.get? path = if path ∈ rows.map (·.path) then
          (files.get? path).bind fun original => (captured.get? path).map (original.1, ·)
        else files.get? path := by
  induction rows generalizing files with
  | nil => exact ⟨files, rfl, by simp⟩
  | cons row rows ih =>
    obtain ⟨hnew, hnodup⟩ := nodup_cons.mp hnodup
    obtain ⟨original, after, horiginal, hafter, hsha, hreadonly⟩ := hrows row (by simp)
    have hother : ∀ path, path ≠ row.path →
        (files.put row.path (original.1, after)).get? path = files.get? path :=
      fun path hne => Dict.get?_put_of_ne (Ne.symm hne)
    have hrest : ∀ row' ∈ rows, ∃ original' after',
        (files.put row.path (original.1, after)).get? row'.path = some original' ∧
        captured.get? row'.path = some after' ∧ original'.2.sha256 = row'.sha256 ∧
        (row'.writable = true ∨ after' = original'.2) := by
      intro row' hrow'
      have hne : row'.path ≠ row.path := fun heq => hnew (mem_map.mpr ⟨row', hrow', heq⟩)
      rw [hother _ hne]
      exact hrows row' (mem_cons_of_mem _ hrow')
    obtain ⟨expected, hfold, hexpected⟩ := ih hnodup hrest
    have hstep : expectRow captured files row = .ok (files.put row.path (original.1, after)) := by
      simp [expectRow, horiginal, hafter, hsha, need, ensure, hreadonly]
    refine ⟨expected, by rw [foldlM_cons, hstep]; exact hfold, fun path => ?_⟩
    rw [hexpected path]
    by_cases hpath : path = row.path
    · subst hpath
      simp [hnew, horiginal, hafter]
    · simp [hpath, hother path hpath]

/-- The files of a baseline with the artifacts of some contents over them. -/
def overlay (lib : Library) (contents : Dict String Bytes) (manifest : Manifest) (path : String) :
    Option (Mode × Artifact) :=
  ((Manifest.files manifest).get? path).map fun original =>
    match contents.get? path with
    | some content => (original.1, artifactOf lib content)
    | none => original

section
section
variable (h : PreparedProjection lib projection contents baseline allowed_paths rows prepared)
include h

theorem PreparedProjection.paths : prepared.map (·.1.path) = rows.map (·.path) := by
  have heach := h.each_row
  clear h
  induction heach with
  | nil => rfl
  | cons hrow _ ih => simp [hrow.path, ih]

theorem PreparedProjection.get (path : String) :
    (Dict.ofList (prepared.map fun p => (p.1.path, p.2))).get? path = contents.get? path := by
  have hnodup : ((prepared.map fun p => (p.1.path, p.2)).map Prod.fst).Nodup := by
    rw [map_map]
    exact h.paths ▸ projection_files_ok h.files
  cases hcontent : contents.get? path with
  | none =>
    rw [Dict.get?_eq_none, Dict.mem_keys_ofList, map_map]
    intro hmem
    have hpath : path ∈ prepared.map (·.1.path) := hmem
    rw [h.paths] at hpath
    exact Dict.get?_eq_none.mp hcontent ((h.keys path).mpr hpath)
  | some content =>
    have hpath := (h.keys path).mp (Dict.mem_keys.mpr ⟨_, hcontent⟩)
    obtain ⟨row, hrow, rfl⟩ := mem_map.mp hpath
    obtain ⟨p, hp, hprepared⟩ := Listing.exists_right h.each_row hrow
    have hsame := hprepared.content
    rw [hcontent] at hsame
    rw [Dict.get?_eq_some, Dict.entries_ofList hnodup, mem_map]
    exact ⟨p, hp, by rw [hprepared.path, Option.some.inj hsame]⟩

end

theorem fileMode_eq (hmodes : modes.get? file.path = some mode)
    (hexecutable : file.executable = decide (mode = .executable)) : fileMode host modes file = mode := by
  simp [fileMode, hmodes, hexecutable]
  cases mode <;> simp

theorem overlay_written (h : PreparedProjection lib projection contents baseline allowed_paths rows prepared)
    (hnodup : (Manifest.paths baseline.manifest).Nodup) (hentry : file.1 ∈ baseline.manifest)
    (hfile : Materialized lib host.objects file) : overlay lib contents baseline.manifest file.1.path =
      some (fileMode host (modesOf baseline) (written prepared file),
        artifactOf lib (written prepared file).content) := by
  have hfiles : (Manifest.files baseline.manifest).get? file.1.path = some file.1.file :=
    (Manifest.files_get hnodup).mpr ⟨_, hentry, rfl, rfl⟩
  have hmodes : (modesOf baseline).get? file.1.path = some file.1.mode := by
    rw [modesOf, Dict.get?_eq_some, Dict.entries_ofList (Manifest.nodup_keys hnodup _), mem_map]
    exact ⟨_, hentry, rfl⟩
  have hmode : fileMode host (modesOf baseline) (written prepared file) = file.1.mode := by
    exact fileMode_eq hmodes rfl
  have hartifact : artifactOf lib file.2 = file.1.artifact := by
    simp [artifactOf, hfile.sha256, hfile.size]
  rw [hmode, overlay, hfiles]
  simp [written, h.get, ManifestEntry.file]
  cases contents.get? file.1.path with
  | none => simp [hartifact]
  | some content => rfl

section
variable {entries : Manifest} (h : Forall₂ (Entered lib host modes) files entries)
include h

theorem entered_paths : Manifest.paths entries = files.map (·.path) := by
  induction h with
  | nil => rfl
  | cons hentry _ ih =>
    simp only [Manifest.paths, map_cons, hentry.path] at ih ⊢
    rw [ih]

theorem entered_size : (entries.map (·.file.2.size)).sum = sizeOf files := by
  induction h with
  | nil => rfl
  | cons hentry _ ih =>
    simp only [sizeOf, map_cons, sum_cons, hentry.filed, artifactOf] at ih ⊢
    rw [ih]

end

def capturedFiles (lib : Library) (contents : Dict String Bytes) : List CapturedFile :=
  contents.entries.map fun e => ⟨e.1, lib.sha256 e.2, e.2.length⟩

/-- A projection that was laid over its baseline, and what was captured of it. -/
structure Writing (lib : Library) (host : Host) (baseline : Baseline) (spec : Freeze)
    (projection : List ProjectionRow) (contents : Dict String Bytes) (rows : List ProjectionRow)
    (prepared files : List (ManifestEntry × Bytes)) (found : Capture) : Prop where
  allowed : spec.allowed_paths.Nodup
  projected : PreparedProjection lib projection contents baseline spec.allowed_paths rows prepared
  entries : files.map Prod.fst = baseline.manifest
  materialized : ∀ file ∈ files, Materialized lib host.objects file
  nodup : (Manifest.paths baseline.manifest).Nodup
  captured : Captured lib host baseline spec (scratchEntries (files.map (written prepared))) found

namespace Writing

theorem captured_get (hperm : captured_files.Perm (capturedFiles lib contents)) (path : String) :
    (capturedArtifacts captured_files).get? path = (contents.get? path).map (artifactOf lib) := by
  have hsame : (captured_files.map fun file => (file.path, (⟨file.sha256, file.size⟩ : Artifact))).Perm
      (contents.entries.map fun e => (e.1, artifactOf lib e.2)) := by
    simpa [capturedFiles, Function.comp_def, artifactOf] using
      hperm.map fun file => (file.path, (⟨file.sha256, file.size⟩ : Artifact))
  have hnodup : ((contents.entries.map fun e => (e.1, artifactOf lib e.2)).map Prod.fst).Nodup := by
    simpa [Function.comp_def] using contents.nodup
  rw [capturedArtifacts, Dict.get?_ofList ((hsame.map Prod.fst).nodup_iff.mpr hnodup), Dict.lookup_perm hnodup hsame,
    ← Dict.get?_ofList hnodup, Dict.get?_ofList_map, Dict.get?_ofList contents.nodup]
  rfl

section
variable (h : Writing lib host baseline spec projection contents rows prepared files found)
include h

theorem walk : ∃ walk, walk.Perm (files.map (written prepared)) ∧ sizeOf walk ≤ MAX_SNAPSHOT_BYTES ∧
      Forall₂ (Entered lib host (modesOf baseline)) walk found.manifest := by
  obtain ⟨walk, hwalk, hsize, hentered⟩ := h.captured.files
  rw [scratch_files] at hwalk
  · exact ⟨walk, hwalk, hsize, hentered⟩
  · intro w hw
    obtain ⟨file, hfile, rfl⟩ := mem_map.mp hw
    exact (h.materialized file hfile).path

theorem paths : (Manifest.paths found.manifest).Perm (Manifest.paths baseline.manifest) := by
  obtain ⟨walk, hscratch, -, hentered⟩ := h.walk
  rw [entered_paths hentered, ← h.entries]
  simpa [Manifest.paths, Function.comp_def, written] using hscratch.map (·.path)

theorem files_get (path : String) :
    (Manifest.files found.manifest).get? path = overlay lib contents baseline.manifest path := by
  obtain ⟨walk, hscratch, -, hentered⟩ := h.walk
  have hnodup := h.paths.nodup_iff.mpr h.nodup
  by_cases hpath : path ∈ Manifest.paths found.manifest
  · obtain ⟨entry, hentry, rfl⟩ := mem_map.mp hpath
    obtain ⟨w, hw, hentered⟩ := Listing.exists_left hentered hentry
    obtain ⟨file, hfile, rfl⟩ := mem_map.mp (hscratch.mem_iff.mp hw)
    have hmem : file.1 ∈ baseline.manifest := h.entries ▸ mem_map_of_mem hfile
    rw [(Manifest.files_get hnodup).mpr ⟨entry, hentry, rfl, hentered.filed⟩, hentered.path]
    exact (overlay_written h.projected h.nodup hmem (h.materialized file hfile)).symm
  · have hnone : ∀ manifest, path ∉ Manifest.paths manifest → (Manifest.files manifest).get? path = none := by
      intro manifest hnot
      rw [Dict.get?_eq_none, Manifest.files, Dict.mem_keys_ofList, map_map]
      exact hnot
    rw [hnone _ hpath, overlay, hnone _ fun hmem => hpath (h.paths.mem_iff.mpr hmem)]
    rfl

theorem unchanged (hrow : PreparedRow lib baseline contents row p) (hreadonly : row.writable = false) :
    artifactOf lib p.2 = p.1.artifact := by
  obtain ⟨file, hfile, heq⟩ := mem_map.mp (show p.1 ∈ files.map Prod.fst from h.entries ▸ hrow.mem)
  obtain ⟨walk, hscratch, -, hentered⟩ := h.walk
  obtain ⟨entry, -, hentry⟩ := Listing.exists_right hentered
    (hscratch.mem_iff.mpr (mem_map_of_mem hfile))
  have hm := h.materialized file hfile
  have hcontent : (written prepared file).content = p.2 := by
    simp [written, h.projected.get, heq, hrow.path, hrow.content]
  have hsha : lib.sha256 p.2 = p.1.artifact.sha256 := (hrow.readonly hreadonly).trans hrow.sha256.symm
  -- the artifact of that digest is the one the baseline was materialized from
  have hlength := hentry.kept file.2 true (by rw [hcontent, hsha, ← heq]; exact hm.kept)
  rw [hcontent, hm.size, heq] at hlength
  simp [artifactOf, hsha, ← hlength]

theorem row_of (hcontent : contents.get? path = some content) :
    ∃ row ∈ rows, row.path = path ∧ ∃ p, PreparedRow lib baseline contents row p ∧ p.2 = content := by
  obtain ⟨row, hrow, hpath⟩ := mem_map.mp ((h.projected.keys path).mp (Dict.mem_keys.mpr ⟨_, hcontent⟩))
  obtain ⟨p, -, hprepared⟩ := Listing.exists_right h.projected.each_row hrow
  have hsame := hprepared.content
  rw [hpath, hcontent] at hsame
  exact ⟨row, hrow, hpath, p, hprepared, (Option.some.inj hsame).symm⟩

theorem expectedRows (hperm : captured_files.Perm (capturedFiles lib contents)) :
    ∃ expected, rows.foldlM (expectRow (capturedArtifacts captured_files))
        (Manifest.files baseline.manifest) = .ok expected ∧
      ∀ path, (Manifest.files found.manifest).get? path = expected.get? path := by
  have hrows : ∀ row ∈ rows, ∃ original after,
      (Manifest.files baseline.manifest).get? row.path = some original ∧
      (capturedArtifacts captured_files).get? row.path = some after ∧
      original.2.sha256 = row.sha256 ∧ (row.writable = true ∨ after = original.2) := by
    intro row hrow
    obtain ⟨p, -, hprepared⟩ := Listing.exists_right h.projected.each_row hrow
    refine ⟨p.1.file, artifactOf lib p.2, ?_, ?_, hprepared.sha256, ?_⟩
    · exact (Manifest.files_get h.nodup).mpr ⟨_, hprepared.mem, hprepared.path, rfl⟩
    · rw [captured_get hperm, hprepared.content]
      rfl
    · cases hw : row.writable with
      | true => exact .inl rfl
      | false => exact .inr (h.unchanged hprepared hw)
  obtain ⟨expected, hfold, hexpected⟩ := expectRows (projection_files_ok h.projected.files) hrows
  refine ⟨expected, hfold, fun path => ?_⟩
  rw [hexpected path, h.files_get path, overlay, captured_get hperm]
  cases hcontent : contents.get? path with
  | none =>
    have hnot : path ∉ rows.map (·.path) := fun hmem =>
      Dict.get?_eq_none.mp hcontent ((h.projected.keys path).mpr hmem)
    simp [hnot]
  | some content =>
    have hmem := (h.projected.keys path).mp (Dict.mem_keys.mpr ⟨_, hcontent⟩)
    rw [if_pos hmem]
    cases (Manifest.files baseline.manifest).get? path <;> rfl

end

theorem expected_ok (hsha : ∀ content, isHex 64 (lib.sha256 content) = true)
    (h : Writing lib host baseline spec projection contents rows prepared files found)
    (hperm : captured_files.Perm (capturedFiles lib contents)) :
    ∃ expected, expected_files lib spec projection captured_files baseline = .ok expected ∧
      ∀ path, (Manifest.files found.manifest).get? path = expected.get? path := by
  obtain ⟨expected, hfold, hexpected⟩ := h.expectedRows hperm
  have hpaths : (captured_files.map (·.path)).Perm contents.keys := by
    simpa [capturedFiles, Dict.keys, Function.comp_def] using hperm.map (·.path)
  have hwell : ∀ file ∈ captured_files, file.wellFormed = true := by
    intro file hfile
    obtain ⟨e, he, rfl⟩ := mem_map.mp (hperm.mem_iff.mp hfile)
    have hget := Dict.get?_eq_some.mpr (show (e.1, e.2) ∈ contents.entries from he)
    obtain ⟨row, -, -, p, hprepared, hcontent⟩ := h.row_of hget
    simp [CapturedFile.wellFormed, hsha, ← hcontent, hprepared.size]
  have hsame : sameSet (captured_files.map (·.path)) (rows.map (·.path)) = true :=
    sameSet_iff.mpr fun path => hpaths.mem_iff.trans (h.projected.keys path)
  have hsize : (expected.values.map fun file => file.2.size).sum ≤ MAX_SNAPSHOT_BYTES := by
    obtain ⟨walk, -, hsize, hentered⟩ := h.walk
    have hentries := Manifest.files_entries (h.paths.nodup_iff.mpr h.nodup)
    have hvalues := (files_perm hexpected).map fun e : String × Mode × Artifact => e.2.2.size
    rw [hentries] at hvalues
    have hsum : (expected.values.map fun file => file.2.size).sum = sizeOf walk := by
      rw [← entered_size hentered]
      simpa [Dict.values, Function.comp_def] using hvalues.sum_eq.symm
    exact hsum ▸ hsize
  refine ⟨expected, ?_, hexpected⟩
  simp only [expected_files, bind_ok, need_ok, ensure_ok, pure_ok, Bool.and_eq_true,
    decide_eq_true_eq, all_eq_true]
  exact ⟨rows, h.projected.files, (), hwell, (), ⟨hpaths.nodup_iff.mpr contents.nodup, hsame⟩, (),
    ⟨h.allowed, h.projected.allowed⟩, (), h.nodup, expected, hfold, (), hsize, rfl⟩

end Writing

end

end Karajan.Candidates
