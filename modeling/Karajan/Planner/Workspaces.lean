import Karajan.Planner.Confined
import Karajan.Planner.Moves
import Mathlib.Data.List.Infix
import Karajan.Candidates.Models

/-!
# The paths of a task's workspace

A task gets the files of the baseline that its plan lets it read, and may write
those below its own paths. No path is another or lies below it, whatever the
case of letters, and what two paths share is spelled alike. The input that is
built from a workspace works its paths out again. Errors are codes.
-/

namespace Karajan.Planner

open List
open Candidates (Baseline Manifest ManifestEntry)
open Check

variable (L : Library)

-- Unambiguous paths

abbrev Parts := List (List Char)

def folded (parts : Parts) : List String := parts.map fun part => L.letters.casefold (String.ofList part)

structure Seen where
  prefixes : Dict (List String) Parts
  files : List (List String)

def addPrefix (files : List (List String)) (prefixes : Dict (List String) Parts) (spelling : Parts) :
    Except String (Dict (List String) Parts) := do
  ensure (!files.contains (folded L spelling) && (prefixes.get? (folded L spelling)).all (· = spelling))
    "TASK_WORKSPACE_PATH_CONFLICT"
  return prefixes.put (folded L spelling) spelling

def addPath (seen : Seen) (path : String) : Except String Seen := do
  let parts ← (pathParts L path).mapError PlanError.code
  ensure (!seen.prefixes.contains (folded L parts)) "TASK_WORKSPACE_PATH_CONFLICT"
  let prefixes ← (parts.inits.filter (· ≠ [])).foldlM (addPrefix L seen.files) seen.prefixes
  return ⟨prefixes, folded L parts :: seen.files⟩

def unambiguous (paths : List String) : Except String Unit := do
  let _ ← paths.foldlM (addPath L) ⟨.empty, []⟩
  return ()

-- What they are

/-- Neither continues the other, and what they share is spelled alike, up to the case of letters. -/
def Distinct (a b : String) : Prop := ∀ p q, pathParts L a = .ok p → pathParts L b = .ok q →
  ¬ folded L p <+: folded L q ∧ ¬ folded L q <+: folded L p ∧
    ∀ s t, s <+: p → t <+: q → folded L s = folded L t → s = t

variable {L}

theorem Distinct.symm (h : Distinct L a b) : Distinct L b a := by
  intro q p hq hp
  obtain ⟨hpq, hqp, hshared⟩ := h p q hp hq
  exact ⟨hqp, hpq, fun s t hs ht hfold => (hshared t s ht hs hfold.symm).symm⟩

theorem parts_ne_nil (h : pathParts L path = .ok parts) : parts ≠ [] := by
  simp only [pathParts, bind_ok, ensure_ok, pure_ok] at h
  obtain ⟨-, -, -, -, -, -, rfl⟩ := h
  exact splitOnP_ne_nil _ _

theorem folded_inj (hs : s <+: p) (ht : t <+: p) (h : folded L s = folded L t) : s = t := by
  have hlength : s.length = t.length := by simpa [folded] using congrArg length h
  exact (prefix_of_prefix_length_le hs ht hlength.le).eq_of_length hlength

-- Adding the prefixes of a path

theorem addPrefix_ok : addPrefix L files prefixes s = .ok prefixes' ↔
    (folded L s ∉ files ∧ ∀ t, prefixes.get? (folded L s) = some t → t = s) ∧
      prefixes.put (folded L s) s = prefixes' := by
  simp only [addPrefix, bind_ok, ensure_ok, pure_ok]
  simp [Option.all_eq_true]

theorem addPrefixes_ok {spellings : List Parts} (hparts : ∀ s ∈ spellings, s <+: parts) :
    (∃ prefixes', spellings.foldlM (addPrefix L files) prefixes = .ok prefixes') ↔
      ∀ s ∈ spellings, folded L s ∉ files ∧ ∀ t, prefixes.get? (folded L s) = some t → t = s := by
  induction spellings generalizing prefixes with
  | nil => simp [pure_ok]
  | cons s rest ih =>
    obtain ⟨hs, hrest⟩ := forall_mem_cons.mp hparts
    have ih := @ih (prefixes.put (folded L s) s) hrest
    simp only [foldlM_cons, bind_ok, addPrefix_ok, forall_mem_cons]
    constructor
    · rintro ⟨_, _, ⟨hfirst, rfl⟩, h⟩
      refine ⟨hfirst, fun t ht => ⟨(ih.mp ⟨_, h⟩ t ht).1, fun u hu => ?_⟩⟩
      by_cases hk : folded L s = folded L t
      · cases folded_inj hs (hrest t ht) hk
        exact hfirst.2 u hu
      · exact (ih.mp ⟨_, h⟩ t ht).2 u (by rwa [Dict.get?_put_of_ne hk])
    · rintro ⟨hfirst, h⟩
      obtain ⟨prefixes', h'⟩ := ih.mpr fun t ht => ⟨(h t ht).1, fun u hu => by
        rw [Dict.get?_put] at hu
        split at hu
        case isTrue hk => cases hu; exact folded_inj hs (hrest t ht) hk
        · exact (h t ht).2 u hu⟩
      exact ⟨prefixes', _, ⟨hfirst, rfl⟩, h'⟩

theorem addPrefixes_get? {spellings : List Parts}
    (h : spellings.foldlM (addPrefix L files) prefixes = .ok prefixes') :
    prefixes'.get? key = some t ↔ t ∈ spellings ∧ folded L t = key ∨ prefixes.get? key = some t := by
  induction spellings generalizing prefixes with
  | nil => simp only [foldlM_nil, pure_ok] at h; simp [h]
  | cons s rest ih =>
    simp only [foldlM_cons, bind_ok, addPrefix_ok] at h
    obtain ⟨_, ⟨⟨-, hsame⟩, rfl⟩, h⟩ := h
    rw [ih h, Dict.get?_put]
    grind

-- The loop

/-- What was seen are the prefixes of the paths so far, each as it was spelled first. -/
structure Records (L : Library) (paths : List String) (seen : Seen) : Prop where
  prefixes : ∀ key t, seen.prefixes.get? key = some t ↔
    ∃ path ∈ paths, ∃ parts, pathParts L path = .ok parts ∧ t <+: parts ∧ t ≠ [] ∧ folded L t = key
  files : ∀ key, key ∈ seen.files ↔
    ∃ path ∈ paths, ∃ parts, pathParts L path = .ok parts ∧ folded L parts = key

theorem addPath_iff : addPath L seen path = .ok seen' ↔ ∃ parts prefixes, pathParts L path = .ok parts ∧
    seen.prefixes.get? (folded L parts) = none ∧
    (parts.inits.filter (· ≠ [])).foldlM (addPrefix L seen.files) seen.prefixes = .ok prefixes ∧
    seen' = ⟨prefixes, folded L parts :: seen.files⟩ := by
  simp only [addPath, bind_ok, mapError_ok, ensure_ok, pure_ok, Bool.not_eq_true', Dict.contains_eq_false]
  grind

theorem addPath_ok (hr : Records L paths seen) (hp : pathParts L path = .ok parts) :
    (∃ seen', addPath L seen path = .ok seen') ↔ ∀ a ∈ paths, Distinct L a path := by
  have hadd : (∃ seen', addPath L seen path = .ok seen') ↔ seen.prefixes.get? (folded L parts) = none ∧
      ∀ s ∈ parts.inits.filter (· ≠ []), folded L s ∉ seen.files ∧
        ∀ t, seen.prefixes.get? (folded L s) = some t → t = s := by
    rw [← addPrefixes_ok fun s hs => (mem_inits _ _).mp (mem_filter.mp hs).1]
    simp only [addPath_iff, hp]
    grind
  simp only [hadd, mem_filter, mem_inits, decide_eq_true_eq, Option.eq_none_iff_forall_ne_some, ne_eq,
    hr.prefixes, hr.files]
  constructor
  · rintro ⟨hnew, hfit⟩ a ha p q hpa hq
    cases hp.symm.trans hq
    refine ⟨fun hbelow => ?_, fun hbelow => ?_, fun s t hs ht hfold => ?_⟩
    · obtain ⟨s, hs, hfold⟩ := prefix_map_iff.mp hbelow
      refine (hfit s ⟨hs, ?_⟩).1 ⟨a, ha, p, hpa, hfold⟩
      rintro rfl
      exact parts_ne_nil hpa (map_eq_nil_iff.mp hfold)
    · obtain ⟨t, ht, hfold⟩ := prefix_map_iff.mp hbelow
      refine hnew t ⟨a, ha, p, hpa, ht, ?_, hfold.symm⟩
      rintro rfl
      exact parts_ne_nil hp (map_eq_nil_iff.mp hfold)
    · by_cases hnil : t = []
      · subst hnil
        exact map_eq_nil_iff.mp hfold
      · refine (hfit t ⟨ht, hnil⟩).2 s ⟨a, ha, p, hpa, hs, ?_, hfold⟩
        rintro rfl
        exact hnil (map_eq_nil_iff.mp hfold.symm)
  · intro h
    refine ⟨?_, fun s hs => ⟨?_, ?_⟩⟩
    · rintro t ⟨a, ha, p, hpa, ht, -, hfold⟩
      exact (h a ha p parts hpa hp).2.1 (hfold ▸ ht.map _)
    · rintro ⟨a, ha, p, hpa, hfold⟩
      exact (h a ha p parts hpa hp).1 (hfold ▸ hs.1.map _)
    · rintro t ⟨a, ha, p, hpa, ht, -, hfold⟩
      exact (h a ha p parts hpa hp).2.2 t s ht hs.1 hfold

theorem addPath_records (hr : Records L paths seen) (h : addPath L seen path = .ok seen') :
    Records L (path :: paths) seen' := by
  obtain ⟨parts, prefixes, hp, -, hprefixes, rfl⟩ := addPath_iff.mp h
  refine ⟨fun key t => ?_, fun key => ?_⟩
  · rw [addPrefixes_get? hprefixes, hr.prefixes]
    simp only [exists_mem_cons_iff, hp, mem_filter, mem_inits]
    grind
  · simp only [mem_cons, hr.files]
    grind

theorem addPaths_ok {paths : List String} (hr : Records L before seen) :
    (∃ seen', paths.foldlM (addPath L) seen = .ok seen') ↔
      (∀ path ∈ paths, ∃ parts, pathParts L path = .ok parts) ∧
      (∀ path ∈ paths, ∀ a ∈ before, Distinct L a path) ∧ paths.Pairwise (Distinct L) := by
  induction paths generalizing before seen with
  | nil => simp [pure_ok]
  | cons path rest ih =>
    simp only [foldlM_cons, bind_ok, forall_mem_cons, pairwise_cons]
    constructor
    · rintro ⟨seen', next, hnext, h⟩
      obtain ⟨parts, -, hp, -⟩ := addPath_iff.mp hnext
      obtain ⟨hparts, hbefore, hrest⟩ := (ih (addPath_records hr hnext)).mp ⟨_, h⟩
      exact ⟨⟨⟨parts, hp⟩, hparts⟩, ⟨(addPath_ok hr hp).mp ⟨_, hnext⟩, fun b hb a ha =>
        hbefore b hb a (mem_cons_of_mem _ ha)⟩, fun b hb => hbefore b hb path mem_cons_self, hrest⟩
    · rintro ⟨⟨⟨parts, hp⟩, hparts⟩, ⟨hfirst, hbefore⟩, hpath, hrest⟩
      obtain ⟨next, hnext⟩ := (addPath_ok hr hp).mpr hfirst
      obtain ⟨seen', h⟩ := (ih (addPath_records hr hnext)).mpr
        ⟨hparts, fun b hb => forall_mem_cons.mpr ⟨hpath b hb, hbefore b hb⟩, hrest⟩
      exact ⟨seen', next, hnext, h⟩

theorem unambiguous_ok : unambiguous L paths = .ok u ↔
    (∀ path ∈ paths, ∃ parts, pathParts L path = .ok parts) ∧ paths.Pairwise (Distinct L) := by
  have hempty : Records L [] ⟨.empty, []⟩ := ⟨by simp, by simp⟩
  have h := @addPaths_ok L [] _ paths hempty
  simp only [unambiguous, bind_ok, pure_ok]
  simpa using h

-- Capturing a workspace

/-- The elements of a list that a check which can fail accepts. -/
def select (f : α → Except ε Bool) : List α → Except ε (List α)
  | [] => .ok []
  | a :: l => do
    let kept ← f a
    let rest ← select f l
    return if kept then a :: rest else rest

theorem mem_select (h : select f l = .ok kept) : a ∈ kept ↔ a ∈ l ∧ f a = .ok true := by
  induction l generalizing kept with
  | nil => cases h; simp
  | cons b l ih =>
    simp only [select, bind_ok, pure_ok] at h
    obtain ⟨taken, hb, rest, hrest, rfl⟩ := h
    have ih := ih hrest
    cases taken <;> grind

structure WorkspaceFile where
  entry : ManifestEntry
  access : List String
deriving DecidableEq

structure Workspace where
  baseline : Baseline
  (read_paths write_paths : List String)
  files : List WorkspaceFile

variable (L : Library) (auth : Authorization) (task : PlanTask)

/-- A path lies at or below one of the roots. -/
def Covers (roots : List String) (path : String) : Prop := ∃ root ∈ roots, Below L root path

def writable (path : String) : Except PlanError Bool := do
  if ← covered L path task.paths then covered L path auth.write_paths else return false

/-- No file of the baseline lies at or below the root. -/
def unfilled (paths : List String) (root : String) : Except PlanError Bool := do
  return !(← paths.anyM (covered L · [root]))

def workspaceFiles (manifest : Manifest) (read_paths write_paths : List String) : List WorkspaceFile :=
  (manifest.filter (·.path ∈ read_paths)).map fun entry =>
    ⟨entry, if entry.path ∈ write_paths then ["read", "write"] else ["read"]⟩

/-- The paths of `_capture`; `registered` is what the candidates answer to the baseline's registration. -/
def capture (registered : Except String Baseline) : Except String Workspace := do
  unambiguous L auth.read_paths
  unambiguous L auth.write_paths
  unambiguous L task.paths
  ensure (!task.paths.isEmpty) "TASK_WORKSPACE_SCOPE_EMPTY"
  let baseline ← registered
  let paths := (baseline.manifest.map ManifestEntry.path).insertionSort (· ≤ ·)
  unambiguous L paths
  let read_paths ← (select (covered L · auth.read_paths) paths).mapError PlanError.code
  let write_paths ← (select (writable L auth task) paths).mapError PlanError.code
  let absent ← (task.paths.anyM (unfilled L paths)).mapError PlanError.code
  ensure (!absent) "TASK_WORKSPACE_NEW_FILES_NOT_SUPPORTED"
  ensure (!read_paths.isEmpty && !write_paths.isEmpty) "TASK_WORKSPACE_SCOPE_EMPTY"
  ensure (write_paths.all (· ∈ read_paths)) "TASK_WORKSPACE_WRITE_NOT_READABLE"
  return ⟨baseline, read_paths, write_paths, workspaceFiles baseline.manifest read_paths write_paths⟩

/-- The paths of `_validate_workspace`, once the stored baseline was found to be the workspace's. -/
def validateWorkspace (workspace : Workspace) : Except String Unit := do
  let paths := (workspace.baseline.manifest.map ManifestEntry.path).insertionSort (· ≤ ·)
  unambiguous L paths
  unambiguous L auth.read_paths
  unambiguous L auth.write_paths
  unambiguous L task.paths
  let reads ← (select (covered L · auth.read_paths) paths).mapError PlanError.code
  let writes ← (select (writable L auth task) paths).mapError PlanError.code
  ensure (!reads.isEmpty && !writes.isEmpty && writes.all (· ∈ reads) && reads = workspace.read_paths &&
    writes = workspace.write_paths &&
    decide (workspaceFiles workspace.baseline.manifest reads writes = workspace.files))
    "TASK_INPUT_PATH_BINDING_MISMATCH"
  let absent ← (task.paths.anyM (unfilled L paths)).mapError PlanError.code
  ensure (!absent) "TASK_INPUT_PATH_BINDING_MISMATCH"

variable {L auth task}

theorem covered_iff (h : unambiguous L roots = .ok u) :
    covered L path roots = .ok true ↔ Covers L roots path := by
  refine ⟨covered_below, ?_⟩
  rintro ⟨root, hroot, hbelow⟩
  exact covered_of_below (unambiguous_ok.mp h).1 hroot hbelow

theorem writable_iff (htask : unambiguous L task.paths = .ok u) (hwrite : unambiguous L auth.write_paths = .ok u) :
    writable L auth task path = .ok true ↔
      Covers L task.paths path ∧ Covers L auth.write_paths path := by
  rw [← covered_iff htask, ← covered_iff hwrite]
  simp only [writable, bind_ok]
  constructor
  · rintro ⟨x, hx, h⟩
    cases x <;> simp_all [pure_ok]
  · rintro ⟨h, h'⟩
    exact ⟨true, h, h'⟩

theorem unfilled_false (h : task.paths.anyM (unfilled L paths) = .ok false) (hroot : root ∈ task.paths) :
    ∃ path ∈ paths, Below L root path := by
  have hany := anyM_false.mp h root hroot
  simp only [unfilled, bind_ok, pure_ok, Bool.not_eq_false'] at hany
  obtain ⟨_, hany, rfl⟩ := hany
  obtain ⟨before, path, after, rfl, -, hpath⟩ := anyM_true hany
  obtain ⟨_, hm, hbelow⟩ := covered_below hpath
  exact ⟨path, by simp, mem_singleton.mp hm ▸ hbelow⟩

/-- Acceptance is the law of the paths, whatever their order; a captured workspace has the paths of its
scopes, and validation accepts it and no other one of the same baseline. -/
theorem workspace_confined (hcapture : capture L auth task registered = .ok w) :
    (∀ paths : List String, (∀ path ∈ paths, ∃ parts, pathParts L path = .ok parts) →
      (unambiguous L paths = .ok () ↔ paths.Pairwise (Distinct L)) ∧
      ∀ paths', paths.Perm paths' → (unambiguous L paths = .ok () ↔ unambiguous L paths' = .ok ())) ∧
    (∀ path, path ∈ w.read_paths ↔ path ∈ w.baseline.manifest.map ManifestEntry.path ∧
      Covers L auth.read_paths path) ∧
    (∀ path, path ∈ w.write_paths ↔ path ∈ w.baseline.manifest.map ManifestEntry.path ∧
      Covers L task.paths path ∧ Covers L auth.write_paths path) ∧
    w.write_paths ≠ [] ∧ w.write_paths ⊆ w.read_paths ∧
    (∀ root ∈ task.paths, ∃ path ∈ w.baseline.manifest.map ManifestEntry.path, Below L root path) ∧
    (∀ file ∈ w.files, "write" ∈ file.access ↔ file.entry.path ∈ w.write_paths) ∧
    ∀ w', w'.baseline = w.baseline → (validateWorkspace L auth task w' = .ok () ↔ w' = w) := by
  simp only [capture, bind_ok, mapError_ok, ensure_ok, pure_ok] at hcapture
  obtain ⟨_, hread, _, hwrite, _, htask, _, -, baseline, -, _, hpaths, reads, hreads, writes, hwrites, absent,
    habsent, _, hfilled, _, hnonempty, _, hwithin, rfl⟩ := hcapture
  obtain rfl : absent = false := by simpa using hfilled
  simp only [Bool.and_eq_true, Bool.not_eq_true', isEmpty_eq_false_iff] at hnonempty
  simp only [all_eq_true, decide_eq_true_eq] at hwithin
  refine ⟨fun paths hparts => ?_, fun path => ?_, fun path => ?_, hnonempty.2, hwithin, fun root hroot => ?_,
    fun file hfile => ?_, fun w' hbaseline => ?_⟩
  · refine ⟨unambiguous_ok.trans ⟨And.right, fun h => ⟨hparts, h⟩⟩, fun paths' hperm => ?_⟩
    rw [unambiguous_ok, unambiguous_ok, hperm.pairwise_iff Distinct.symm]
    simp only [hperm.mem_iff]
  · rw [mem_select hreads, mem_insertionSort, covered_iff hread]
  · rw [mem_select hwrites, mem_insertionSort, writable_iff htask hwrite]
  · obtain ⟨path, hpath, hbelow⟩ := unfilled_false habsent hroot
    exact ⟨path, (mem_insertionSort _).mp hpath, hbelow⟩
  · obtain ⟨entry, -, rfl⟩ := mem_map.mp hfile
    by_cases h : entry.path ∈ writes <;> simp [h]
  · obtain ⟨_, read_paths, write_paths, files⟩ := w'
    cases hbaseline
    have hempty : reads.isEmpty = false ∧ writes.isEmpty = false := by simpa using hnonempty
    have hsubset : writes.all (· ∈ reads) = true := by simpa using hwithin
    simp only [validateWorkspace, hpaths, hread, hwrite, htask, hreads, hwrites, habsent, Except.mapError, ok_bind,
      bind_ok, ensure_ok]
    simp [hempty, hsubset]
    grind

def capturedSample : Except String Workspace :=
  capture ConfinedSample.library ConfinedSample.proposed.toAuthorization ConfinedSample.task.toPlanTask
    (.ok ⟨"l", "r", "s", "t", [⟨"s/a/x", .regular, "b", ⟨"h", 1⟩⟩]⟩)

theorem workspace_confined_one : ∃ w, capturedSample = .ok w ∧ w.write_paths ⊆ w.read_paths := by
  have hsome : capturedSample.toOption.isSome = true := by decide +kernel
  cases hcapture : capturedSample with
  | error => simp [hcapture, Except.toOption] at hsome
  | ok w => exact ⟨w, rfl, (workspace_confined hcapture).2.2.2.2.1⟩

end Karajan.Planner
