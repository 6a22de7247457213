import Karajan.Candidates.Gate
import Karajan.Candidates.Writing

/-!
# Captures are found again

Every record of the store is what its request, its baseline and its manifest
make it, and git made its tree. So a lookup finds the records of a request
whose files are the expected ones, and a capture is found as long as no other
revision has the same request and the same files. A rebinding is found by its
key, of which there is one.
-/

namespace Karajan.Candidates

open List Check
open GitTree (Bytes Listed Documented)
variable {lib : Library} {store : Store} {c : Candidate} {id : String} {s t : Store}

-- Trees

/-- A host whose git answers with the ids of the objects it makes. -/
def Git (lib : Library) (host : Host) : Prop := Documented lib.sha1 host.mktree

theorem parts_injective : Function.Injective parts := by
  intro a b h
  have hsplit := map_injective_iff.mpr (fun _ _ heq => String.ofList_injective heq) h
  exact String.toList_injective (Paths.splitOn_injective '/' hsplit)

open Manifest (paths rows files)

theorem rows_listed (h : (paths manifest).Nodup) : Listed (rows manifest) where
  nodup := by
    have hparts := h.map parts_injective
    simpa [rows, paths, Function.comp_def] using hparts
  parts := by
    intro row hrow part hpart
    obtain ⟨entry, -, rfl⟩ := mem_map.mp hrow
    obtain ⟨chars, hchars, rfl⟩ := mem_map.mp hpart
    rw [String.toList_ofList]
    exact Paths.not_mem_segment hchars

theorem tree_hash_of_tree (hgit : Git lib host)
    (hpaths : (paths manifest).Nodup) (h : tree host manifest = .ok tree_sha) :
    tree_hash lib manifest = some tree_sha :=
  GitTree.hashed_of_made hgit (rows_listed hpaths) (need_ok.mp h)

-- What records are

/-- A record is what its request, its baseline and its manifest make it. -/
structure Recorded (lib : Library) (store : Store) (r : Candidate) : Prop where
  series : r.series_id = r.request.series_id
  input : r.input_sha256 = r.request.input_sha256
  content : r.content_sha256 = lib.digest (.content r.toContentIdentity)
  manifest : r.manifest_sha256 = lib.manifest_digest r.manifest
  policy : r.policy_sha256 = lib.digest (.policy r.request.policy)
  tree : ∃ host, Git lib host ∧ tree host r.manifest = .ok r.tree_sha
  baseline : ∃ b, store.baseline? r.request.baseline_id = some b ∧
    r.repository_identity = b.repository_identity ∧ r.base_sha = b.base_sha

theorem find?_prefix {l l' : List α} {p : α → Bool} (h : l <+: l') (hfind : l.find? p = some a) :
    l'.find? p = some a := by
  obtain ⟨rest, rfl⟩ := h
  rw [find?_append, hfind]
  rfl

theorem Store.Grows.baseline? (h : s.Grows t) (hb : s.baseline? id = some b) :
    t.baseline? id = some b := find?_prefix h.baselines hb

theorem Store.Grows.candidate? (h : s.Grows t) (hc : s.candidate? id = some c) :
    t.candidate? id = some c := find?_prefix h.candidates hc

theorem Recorded.grows (h : s.Grows t) (hr : Recorded lib s r) : Recorded lib t r := by
  obtain ⟨b, hb, hsame⟩ := hr.baseline
  exact ⟨hr.series, hr.input, hr.content, hr.manifest, hr.policy, hr.tree, b, h.baseline? hb, hsame⟩

def Store.commandKeys (store : Store) : List String := store.candidates.filterMap (·.commandKey)

structure Kept (lib : Library) (store : Store) : Prop where
  recorded : ∀ r ∈ store.candidates, Recorded lib store r
  ids : (store.candidates.map (·.id)).Nodup
  keys : store.commandKeys.Nodup

theorem Committed.recorded (h : Committed lib (Git lib) store c)
    (hs : ∀ r ∈ store.candidates, Recorded lib store r) : Recorded lib store c := by
  cases h with
  | frozen hok hcapture =>
    obtain ⟨-, baseline, hbaseline, entries, -, hcaptured⟩ := capture_ok hcapture
    have hcaptured := captured_ok hcaptured
    exact {
      series := rfl
      input := by
        rw [← hcaptured.request] at hcaptured
        exact hcaptured.input
      content := rfl
      manifest := rfl
      policy := rfl
      tree := ⟨_, hok, hcaptured.tree⟩
      baseline := by
        rw [← hcaptured.request] at hbaseline
        exact ⟨baseline, hbaseline, hcaptured.repository, hcaptured.base⟩ }
  | rebound hcommand hfirst hsource hcheck =>
    have hsame := hs _ (sourceCandidate_mem hsource)
    exact {
      series := hsame.series
      input := hsame.input
      content := hsame.content
      manifest := hsame.manifest
      policy := rfl
      tree := hsame.tree
      baseline := hsame.baseline }

theorem lookupRebind_none (h : lookupRebind lib store command = .ok none) :
    command.command_key ∉ store.commandKeys := by
  simp only [lookupRebind] at h
  split at h
  case h_1 hnone =>
    intro hmem
    obtain ⟨r, hr, hkey⟩ := mem_filterMap.mp hmem
    have hfound : r ∈ store.candidates.filter (·.commandKey = some command.command_key) :=
      mem_filter.mpr ⟨hr, by simpa using hkey⟩
    rw [hnone] at hfound
    cases hfound
  case h_2 row hrow =>
    simp only [bind_ok, pure_ok] at h
    obtain ⟨_, _, _, _, _, _, _, _, _, _, h⟩ := h
    cases h
  · cases h

theorem Committed.keys (h : Committed lib ok store c) (hs : store.commandKeys.Nodup) :
    (store.commandKeys ++ c.commandKey.toList).Nodup := by
  cases h with
  | frozen => simpa [Candidate.commandKey, Capture.next, Capture.record] using hs
  | rebound hcommand hfirst hsource hcheck =>
    simpa [Candidate.commandKey, derived, nodup_append] using
      ⟨hs, fun key hkey heq => lookupRebind_none hfirst (heq ▸ hkey)⟩

theorem Moves.kept {s t : State} (h : Moves lib (Git lib) s t) (hs : Kept lib s.store) : Kept lib t.store := by
  have hgrows := h.grows
  cases h with
  | same | prepared | forgotten => exact hs
  | saved | registered => exact ⟨fun r hr => (hs.recorded r hr).grows hgrows, hs.ids, hs.keys⟩
  | candidate c hfresh hcommitted =>
    refine ⟨?_, nodup_snoc hs.ids fun r hr => (hfresh r hr).1, ?_⟩
    · intro r hr
      rcases mem_append.mp hr with hr | hr
      · exact (hs.recorded r hr).grows hgrows
      · cases mem_singleton.mp hr
        exact (hcommitted.recorded hs.recorded).grows hgrows
    · have hkeys := hcommitted.keys hs.keys
      simp only [Store.commandKeys, filterMap_append] at hkeys ⊢
      cases hkey : c.commandKey <;> simpa [hkey] using hkeys

theorem kept_step {s t : State} (a : Action) (ha : a.hosts (Git lib)) (hs : Kept lib s.store)
    (h : step lib s a = t) : Kept lib t.store := h ▸ (step_moves s a ha).kept hs

theorem kept_path {s t : State} (h : (system lib).Path (hosted (Git lib)) s t) (hs : Kept lib s.store) :
    Kept lib t.store := by
  refine h.keeps (I := fun s => Kept lib s.store) ?_ hs
  intro s a hs ha
  exact (step_moves s a ha).kept hs

theorem kept_reach {s : State} (h : (system lib).Reach (hosted (Git lib)) s) : Kept lib s.store := by
  obtain ⟨i, rfl, hpath⟩ := h
  refine kept_path hpath ⟨?_, ?_, ?_⟩ <;> simp [empty, Store.commandKeys]

-- Looking up

/-- Whether a revision is of a request and has the expected files. -/
def Candidate.ofCapture (r : Candidate) (spec : Freeze) (expected : Files) : Bool :=
  r.request = spec && sameFiles (files r.manifest) expected &&
    r.manifest.length = expected.entries.length

theorem isCapture_eq (hr : Recorded lib store r) (hb : store.baseline? spec.baseline_id = some b) :
    isCapture lib r spec b expected = .ok (r.ofCapture spec expected) := by
  simp only [isCapture, Candidate.ofCapture]
  split
  case isTrue hne => simp [hne]
  case isFalse heq =>
    have heq : r.request = spec := not_not.mp heq
    split
    case isTrue hne =>
      simp only [Bool.or_eq_true, Bool.not_eq_true', decide_eq_true_eq] at hne
      rcases hne with hne | hne
      · simp [hne]
      · simp [hne]
    case isFalse hsame =>
      simp only [Bool.or_eq_true, Bool.not_eq_true', decide_eq_true_eq, not_or, Bool.not_eq_false,
        ne_eq, not_not] at hsame
      obtain ⟨hsame, hlength⟩ := hsame
      have hperm := files_perm (sameFiles_iff.mp hsame)
      have hpaths := Manifest.nodup_of_length (hlength.trans hperm.length_eq.symm)
      obtain ⟨host, hgit, htree⟩ := hr.tree
      obtain ⟨b', hb', hrepository, hbase⟩ := hr.baseline
      rw [heq, hb] at hb'
      cases hb'
      have hidentity : r.toContentIdentity = contentIdentity spec b r.tree_sha := by
        rw [contentIdentity, ← hrepository, ← hbase, ← heq, ← hr.input]
      have hcontent := hr.content
      rw [hidentity] at hcontent
      have hpolicy := hr.policy
      rw [heq] at hpolicy
      have hall : (decide (r.toContentIdentity = contentIdentity spec b r.tree_sha) &&
          decide (r.content_sha256 = lib.digest (.content (contentIdentity spec b r.tree_sha))) &&
          decide (r.manifest_sha256 = lib.manifest_digest r.manifest) &&
          decide (r.policy_sha256 = lib.digest (.policy spec.policy))) = true := by
        simp only [Bool.and_eq_true, decide_eq_true_eq]
        exact ⟨⟨⟨hidentity, hcontent⟩, hr.manifest⟩, hpolicy⟩
      rw [tree_hash_of_tree hgit hpaths htree]
      simp only [need, ok_bind, hall, heq, hsame, hlength]
      rfl

theorem matching_eq (h : ∀ r ∈ l, test r = .ok (p r)) : matching test l = .ok (l.filter p) := by
  induction l with
  | nil => rfl
  | cons r l ih =>
    simp only [matching, h r (by simp), ih fun r hr => h r (mem_cons_of_mem _ hr), ok_bind]
    cases hp : p r <;> simp [hp, pure, Except.pure]

theorem get_baseline_ok (h : get_baseline lib store id = .ok b) : store.baseline? id = some b := by
  simp only [get_baseline, checkedBaseline, bind_ok, need_ok, pure_ok] at h
  obtain ⟨b', hb', _, _, rfl⟩ := h
  exact hb'

theorem Store.Grows.get_baseline (h : s.Grows t)
    (hb : Candidates.get_baseline lib s id = .ok b) : Candidates.get_baseline lib t id = .ok b := by
  simp only [Candidates.get_baseline, bind_ok, need_ok] at hb ⊢
  obtain ⟨b', hb', hchecked⟩ := hb
  exact ⟨b', h.baseline? hb', hchecked⟩

theorem series_filter (hs : Kept lib store) (spec : Freeze) :
    (store.series spec.series_id).filter (·.ofCapture spec expected) =
      store.candidates.filter (·.ofCapture spec expected) := by
  rw [Store.series, filter_filter]
  refine filter_congr fun r hr => ?_
  cases hof : r.ofCapture spec expected with
  | false => rfl
  | true =>
    simp only [Candidate.ofCapture, Bool.and_eq_true, decide_eq_true_eq] at hof
    simp [(hs.recorded r hr).series, hof.1.1]

theorem lookup_eq (hs : Kept lib store) (hwriter : spec.writerStopped = true)
    (hb : get_baseline lib store spec.baseline_id = .ok b)
    (hexpected : expected_files lib spec projection captured_files b = .ok expected) :
    lookup_projection_capture lib store spec projection captured_files =
      theOnly (store.candidates.filter (·.ofCapture spec expected)) := by
  have hmatching : matching (isCapture lib · spec b expected) (store.series spec.series_id) =
      .ok (store.candidates.filter (·.ofCapture spec expected)) := by
    rw [← series_filter hs spec]
    exact matching_eq fun r hr =>
      isCapture_eq (hs.recorded r (mem_filter.mp hr).1) (get_baseline_ok hb)
  simp [lookup_projection_capture, hwriter, ensure, hb, hexpected, hmatching]

theorem lookup_ok (h : lookup_projection_capture lib store spec projection captured_files = .ok answer) :
    spec.writerStopped = true ∧ ∃ b, get_baseline lib store spec.baseline_id = .ok b ∧
      ∃ expected, expected_files lib spec projection captured_files b = .ok expected := by
  simp only [lookup_projection_capture, bind_ok, ensure_ok] at h
  obtain ⟨_, hwriter, b, hb, expected, hexpected, -⟩ := h
  exact ⟨hwriter, b, hb, expected, hexpected⟩

theorem theOnly_ok (h : theOnly found = .ok answer) : answer.toList = found := by
  cases found with
  | nil => cases h; rfl
  | cons r rest =>
    cases rest with
    | nil => cases h; rfl
    | cons => cases h

/-- Whether two revisions are of one request and have the same files. -/
def SameCapture (r c : Candidate) : Prop :=
  r.request = c.request ∧ r.manifest.length = c.manifest.length ∧
    ∀ path, (files r.manifest).get? path = (files c.manifest).get? path

theorem ofCapture_iff (hc : c.ofCapture spec expected = true) :
    r.ofCapture spec expected = true ↔ SameCapture r c := by
  simp only [Candidate.ofCapture, Bool.and_eq_true, decide_eq_true_eq, sameFiles_iff] at hc ⊢
  obtain ⟨⟨hrequest, hfiles⟩, hlength⟩ := hc
  simp only [SameCapture, hrequest, hlength, hfiles]
  tauto

theorem theOnly_two (ha : a ∈ found) (hb : b ∈ found) (hne : a ≠ b) :
    theOnly found = .error .captureIdentityAmbiguous := by
  match found with
  | [] => cases ha
  | [r] => exact absurd ((mem_singleton.mp ha).trans (mem_singleton.mp hb).symm) hne
  | _ :: _ :: _ => rfl

-- A committed capture

theorem newest_mem (h : store.newest series_id = some c) : c ∈ store.candidates :=
  (mem_filter.mp (argmax_mem h)).1

theorem committed_expected (hsha : ∀ content, isHex 64 (lib.sha256 content) = true)
    (hcall : freeze_projection lib host scratch store projection contents spec id now = .ok (store', c))
    (hnew : c ∉ store.candidates) (hlater : store'.Grows later)
    (hperm : captured_files.Perm (capturedFiles lib contents)) :
    c ∈ later.candidates ∧ spec.writerStopped = true ∧
    ∃ b, get_baseline lib later spec.baseline_id = .ok b ∧
    ∃ expected, expected_files lib spec projection captured_files b = .ok expected ∧
      c.ofCapture spec expected = true := by
  obtain ⟨hallowed, hwriter, b, hb, prepared, hprepared, files, hfiles, hfreeze⟩ := freeze_projection_ok hcall
  obtain ⟨found, hcapture, hcommit⟩ := freeze_ok hfreeze
  obtain ⟨-, hnewest, -⟩ | ⟨rfl, -, rfl⟩ := commit_ok hcommit
  · exact absurd (newest_mem hnewest) hnew
  · have hstep : store.Grows { store with candidates := store.candidates ++ [found.next lib store id now] } :=
      ⟨prefix_refl _, prefix_append _ _, prefix_refl _⟩
    have hgrows := hstep.trans hlater
    obtain ⟨-, b', hb', entries, hentries, hcaptured⟩ := capture_ok hcapture
    cases Option.some.inj ((get_baseline_ok hb).symm.trans hb')
    cases hentries
    obtain ⟨rows, hprojected⟩ := prepare_projection_ok hprepared
    obtain ⟨hentries, hmaterialized, hnodup⟩ := materialize_ok hfiles
    have hcaptured := captured_ok hcaptured
    have hwriting : Writing lib host b spec projection contents rows prepared files found :=
      ⟨hallowed, hprojected, hentries, hmaterialized, hnodup, hcaptured⟩
    obtain ⟨expected, hexpected, hfiles⟩ := hwriting.expected_ok hsha hperm
    refine ⟨hlater.candidates.subset (by simp), hwriter, b, hgrows.get_baseline hb, expected, hexpected, ?_⟩
    have hlength := (files_perm hfiles).length_eq
    rw [Manifest.files_entries (hwriting.paths.nodup_iff.mpr hnodup), length_map] at hlength
    simp only [Candidate.ofCapture, Bool.and_eq_true, decide_eq_true_eq]
    exact ⟨⟨hcaptured.request, sameFiles_iff.mpr hfiles⟩, hlength⟩

theorem Kept.nodup (hs : Kept lib store) : store.candidates.Nodup := hs.ids.of_map _

/-- The arguments of a committed capture are answered with the candidate that was committed,
unless another revision has its request and its files. -/
theorem recovered {s t : State} (hsha : ∀ content, isHex 64 (lib.sha256 content) = true) (ht : Kept lib t.store)
    (hcall : freeze_projection lib host scratch s.store projection contents spec id now =
      .ok (store', c)) (hnew : c ∉ s.store.candidates) (hlater : store'.Grows t.store)
    (hperm : captured_files.Perm (capturedFiles lib contents)) : c ∈ t.store.candidates ∧
    ((∀ r ∈ t.store.candidates, SameCapture r c → r = c) →
      lookup_projection_capture lib t.store spec projection captured_files = .ok (some c)) ∧
    ((∃ r ∈ t.store.candidates, SameCapture r c ∧ r ≠ c) →
      lookup_projection_capture lib t.store spec projection captured_files =
        .error .captureIdentityAmbiguous) := by
  obtain ⟨hc, hwriter, b, hb, expected, hexpected, hof⟩ := committed_expected hsha hcall hnew hlater hperm
  have hlookup := lookup_eq ht hwriter hb hexpected
  refine ⟨hc, fun honly => ?_, ?_⟩
  · rw [hlookup, Listing.filter_only ht.nodup hc hof fun r hr hrof => honly r hr ((ofCapture_iff hof).mp hrof)]
    rfl
  · rintro ⟨r, hr, hsame, hne⟩
    rw [hlookup]
    exact theOnly_two (mem_filter.mpr ⟨hr, (ofCapture_iff hof).mpr hsame⟩)
      (mem_filter.mpr ⟨hc, hof⟩) hne

/-- Whatever the arguments, a lookup answers with every revision that has their request and the
files they expect. -/
theorem answered (hs : Kept lib store)
    (h : lookup_projection_capture lib store spec projection captured_files = .ok answer) :
    ∃ b, get_baseline lib store spec.baseline_id = .ok b ∧
    ∃ expected, expected_files lib spec projection captured_files b = .ok expected ∧
      ∀ r, answer = some r ↔ r ∈ store.candidates ∧ r.ofCapture spec expected = true := by
  obtain ⟨hwriter, b, hb, expected, hexpected⟩ := lookup_ok h
  rw [lookup_eq hs hwriter hb hexpected] at h
  have hanswer := theOnly_ok h
  refine ⟨b, hb, expected, hexpected, fun r => ?_⟩
  have hmem : r ∈ answer.toList ↔ r ∈ store.candidates ∧ r.ofCapture spec expected = true := by
    rw [hanswer]
    exact mem_filter
  simpa [Option.mem_toList] using hmem

-- Rebinding

theorem checkedCandidate_grows (h : s.Grows t)
    (hc : checkedCandidate lib s id = .ok c) : checkedCandidate lib t id = .ok c := by
  simp only [checkedCandidate, bind_ok, need_ok] at hc ⊢
  obtain ⟨record, hrecord, hrest⟩ := hc
  exact ⟨record, h.candidate? hrecord, hrest⟩

theorem sourceCandidate_grows (h : s.Grows t)
    (hc : sourceCandidate lib s command = .ok c) : sourceCandidate lib t command = .ok c := by
  simp only [sourceCandidate, bind_ok] at hc ⊢
  obtain ⟨source, hsource, hrest⟩ := hc
  exact ⟨source, checkedCandidate_grows h hsource, hrest⟩

theorem sourceCandidate_checked (h : sourceCandidate lib store command = .ok source) :
    checkedCandidate lib store source.id = .ok source := by
  simp only [sourceCandidate, bind_ok, pure_ok] at h
  obtain ⟨source, hsource, _, _, rfl⟩ := h
  have hid : source.id = command.binding.source_candidate.id := by
    simp only [checkedCandidate, bind_ok, need_ok, pure_ok] at hsource
    obtain ⟨record, hrecord, _, _, _, _, _, _, rfl⟩ := hsource
    simpa using find?_some hrecord
  rw [hid]
  exact hsource

theorem Kept.candidate? (hs : Kept lib store) (hc : c ∈ store.candidates) : store.candidate? c.id = some c :=
  (Listing.find_eq_some hs.ids).mpr ⟨hc, rfl⟩

theorem inj_of_nodup_filterMap {l : List α} {f : α → Option β} (hl : (l.filterMap f).Nodup)
    (ha : a ∈ l) (hb : b ∈ l) (hfa : f a = some k) (hfb : f b = some k) : a = b := by
  by_contra hne
  have hsymm : Std.Symm fun a a' => ∀ b, f a = some b → ∀ b', f a' = some b' → b ≠ b' :=
    ⟨fun _ _ h k hk k' hk' => (h k' hk' k hk).symm⟩
  exact (pairwise_filterMap.mp hl).forall ha hb hne k hfa k hfb rfl

theorem Kept.of_key {key : String} (hs : Kept lib store) (hc : c ∈ store.candidates)
    (hkey : c.commandKey = some key) : store.candidates.filter (·.commandKey = some key) = [c] := by
  refine Listing.filter_only hs.nodup hc (by simpa using hkey) fun r hr hrkey => ?_
  exact inj_of_nodup_filterMap hs.keys hr hc (by simpa using hrkey) hkey

theorem lookupRebind_iff (hs : Kept lib store) :
    lookupRebind lib store command = .ok (some c) ↔ c ∈ store.candidates ∧
      (∃ retained, c.review_rebind = some retained ∧ retained.command_key = command.command_key ∧
        retained.binding = command.binding) ∧
      ∃ source, sourceCandidate lib store command = .ok source ∧
        checkedCandidate lib store c.id = .ok c ∧
        c = derived lib source command c.id c.frozen_at := by
  constructor
  · intro h
    simp only [lookupRebind] at h
    split at h
    · cases h
    case h_2 row hrow =>
      simp only [bind_ok, need_ok, ensure_ok, pure_ok, decide_eq_true_eq] at h
      obtain ⟨retained, hretained, _, hbinding, source, hsource, actual, hactual, _, hsame, hc⟩ := h
      cases hc
      have hmem : row ∈ store.candidates.filter (·.commandKey = some command.command_key) := by
        simp [hrow]
      obtain ⟨hmem, hkey⟩ := mem_filter.mp hmem
      have hrow : checkedCandidate lib store row.id = .ok c := hactual
      have hc : row = c := by
        simp only [checkedCandidate, bind_ok, need_ok, pure_ok] at hrow
        obtain ⟨record, hrecord, _, _, _, _, _, _, rfl⟩ := hrow
        exact Option.some.inj ((hs.candidate? hmem).symm.trans hrecord)
      subst hc
      refine ⟨hmem, ⟨retained, hretained, ?_, hbinding⟩, source, hsource, hactual, hsame⟩
      simpa [Candidate.commandKey, hretained] using hkey
    · cases h
  · rintro ⟨hc, ⟨retained, hretained, hkey, hbinding⟩, source, hsource, hchecked, hsame⟩
    have hrow := hs.of_key hc (show c.commandKey = some command.command_key by
      simp [Candidate.commandKey, hretained, hkey])
    simp only [lookupRebind, hrow, bind_ok, need_ok, ensure_ok, pure_ok, decide_eq_true_eq]
    exact ⟨retained, hretained, (), hbinding, source, hsource, c, hchecked, (), hsame, rfl⟩

theorem lookupRebind_grows (hs : Kept lib s) (ht : Kept lib t) (hgrows : s.Grows t)
    (h : lookupRebind lib s command = .ok (some c)) : lookupRebind lib t command = .ok (some c) := by
  obtain ⟨hc, hkey, source, hsource, hchecked, hsame⟩ := (lookupRebind_iff hs).mp h
  exact (lookupRebind_iff ht).mpr ⟨hgrows.candidates.subset hc, hkey, source,
    sourceCandidate_grows hgrows hsource, checkedCandidate_grows hgrows hchecked, hsame⟩

theorem checkedCandidate_derived (ht : Kept lib t) (hsource : sourceCandidate lib s command = .ok source)
    (hmem : derived lib source command id now ∈ t.candidates) :
    checkedCandidate lib t id = .ok (derived lib source command id now) := by
  have hchecked := sourceCandidate_checked hsource
  simp only [checkedCandidate, bind_ok, need_ok, ensure_ok, pure_ok, Bool.and_eq_true,
    decide_eq_true_eq] at hchecked ⊢
  obtain ⟨record, hrecord, u, hmanifest, tree_sha, htree, _, hsame, rfl⟩ := hchecked
  obtain ⟨⟨⟨⟨⟨⟨hseries, hinput⟩, hwriter⟩, hcontent⟩, hdigest⟩, -⟩, hsha⟩ := hsame
  exact ⟨_, ht.candidate? hmem, u, hmanifest, tree_sha, htree, (),
    ⟨⟨⟨⟨⟨⟨hseries, hinput⟩, hwriter⟩, hcontent⟩, hdigest⟩, rfl⟩, hsha⟩, rfl⟩

theorem lookupRebind_derived (ht : Kept lib t) (hgrows : s.Grows t)
    (hsource : sourceCandidate lib s command = .ok source)
    (hmem : derived lib source command id now ∈ t.candidates) :
    lookupRebind lib t command = .ok (some (derived lib source command id now)) :=
  (lookupRebind_iff ht).mpr ⟨hmem, ⟨_, rfl, rfl, rfl⟩, source, sourceCandidate_grows hgrows hsource,
    checkedCandidate_derived ht hsource hmem, rfl⟩

theorem rebind_found (hcommand : reviewCommand binding command_key = .ok command)
    (h : lookupRebind lib store command = .ok (some c)) :
    lookup_review_rebind lib store binding command_key = .ok (some c) ∧
    ∀ objects id now, rebind_reviewers lib objects store binding command_key id now = .ok (store, c) := by
  refine ⟨by simp [lookup_review_rebind, hcommand, h], fun objects id now => ?_⟩
  simp only [rebind_reviewers, hcommand, h, ok_bind]
  rfl

/-- A revision that is its source but for its id, its number, its time, its reviewers and what
follows from these. -/
def Rebound (binding : ReviewerBinding) (source c : Candidate) : Prop :=
  c = { source with
    id := c.id
    revision := source.revision + 1
    frozen_at := c.frozen_at
    request := source.request.withReviewers binding.reviewers
    policy_sha256 := c.policy_sha256
    review_rebind := c.review_rebind }

/-- A rebinding appends one revision of the newest of its series, or it was carried out
before; and it is found ever after. -/
theorem rebind_kept {s t : State} (hs : Kept lib s.store) (ht : Kept lib t.store)
    (hcall : rebind_reviewers lib objects s.store binding command_key id now = .ok (store', c))
    (hgrows : store'.Grows t.store) : ((store' = s.store ∧ c ∈ s.store.candidates) ∨
      (store' = { s.store with candidates := s.store.candidates ++ [c] } ∧
        ∃ source ∈ s.store.candidates, Rebound binding source c ∧
          ∀ r ∈ s.store.candidates, r.series_id = c.series_id → r.revision < c.revision)) ∧
    lookup_review_rebind lib t.store binding command_key = .ok (some c) ∧
    ∀ objects id now, rebind_reviewers lib objects t.store binding command_key id now = .ok (t.store, c) := by
  obtain ⟨command, hcommand, ⟨rfl, hprior⟩ | ⟨-, source, hsource, hcheck, rfl, hfresh, rfl⟩⟩ := rebind_ok hcall
  · exact ⟨.inl ⟨rfl, ((lookupRebind_iff hs).mp hprior).1⟩,
      rebind_found hcommand (lookupRebind_grows hs ht hgrows hprior)⟩
  · have hstep : s.store.Grows { s.store with
        candidates := s.store.candidates ++ [derived lib source command id now] } :=
      ⟨prefix_refl _, prefix_append _ _, prefix_refl _⟩
    have hmem : derived lib source command id now ∈ t.store.candidates := hgrows.candidates.subset (by simp)
    refine ⟨.inr ⟨rfl, source, sourceCandidate_mem hsource, ?_, ?_⟩,
      rebind_found hcommand (lookupRebind_derived ht (hstep.trans hgrows) hsource hmem)⟩
    · simp only [reviewCommand, bind_ok, pure_ok] at hcommand
      obtain ⟨_, _, rfl⟩ := hcommand
      rfl
    · intro r hr hseries
      have hseries : r.series_id = source.series_id := hseries
      simp only [checkSource, bind_ok, ensure_ok, decide_eq_true_eq] at hcheck
      obtain ⟨-, hmax⟩ := max?_eq_some_iff.mp hcheck.choose_spec.1
      have hle := hmax _ (mem_map_of_mem (mem_filter.mpr ⟨hr, by simpa using hseries⟩))
      exact Nat.lt_succ_of_le hle

-- Recovery

/-- A capture is recovered with the arguments it was committed with, and refused as ambiguous
where another revision has its request and its files; a lookup answers with the revisions that
have the request and the files its arguments give; and a rebinding is made once and found. -/
theorem capture_recovered (hsha : ∀ content, isHex 64 (lib.sha256 content) = true) :
    (∀ s t host scratch projection contents spec id now store' c captured_files,
      (system lib).Reach (hosted (Git lib)) s → Git lib host →
      freeze_projection lib host scratch s.store projection contents spec id now = .ok (store', c) →
      c ∉ s.store.candidates → (system lib).Path (hosted (Git lib)) { s with store := store' } t →
      captured_files.Perm (capturedFiles lib contents) →
      c ∈ t.store.candidates ∧
      ((∀ r ∈ t.store.candidates, SameCapture r c → r = c) →
        lookup_projection_capture lib t.store spec projection captured_files = .ok (some c)) ∧
      ((∃ r ∈ t.store.candidates, SameCapture r c ∧ r ≠ c) →
        lookup_projection_capture lib t.store spec projection captured_files =
          .error .captureIdentityAmbiguous)) ∧
    (∀ t spec projection captured_files answer, (system lib).Reach (hosted (Git lib)) t →
      lookup_projection_capture lib t.store spec projection captured_files = .ok answer →
      ∃ b, get_baseline lib t.store spec.baseline_id = .ok b ∧
      ∃ expected, expected_files lib spec projection captured_files b = .ok expected ∧
        ∀ r, answer = some r ↔ r ∈ t.store.candidates ∧ r.ofCapture spec expected = true) ∧
    (∀ s t objects binding command_key id now store' c, (system lib).Reach (hosted (Git lib)) s →
      rebind_reviewers lib objects s.store binding command_key id now = .ok (store', c) →
      (system lib).Path (hosted (Git lib)) { s with store := store' } t →
      ((store' = s.store ∧ c ∈ s.store.candidates) ∨
        (store' = { s.store with candidates := s.store.candidates ++ [c] } ∧
          ∃ source ∈ s.store.candidates, Rebound binding source c ∧
            ∀ r ∈ s.store.candidates, r.series_id = c.series_id → r.revision < c.revision)) ∧
      lookup_review_rebind lib t.store binding command_key = .ok (some c) ∧
      ∀ objects id now, rebind_reviewers lib objects t.store binding command_key id now = .ok (t.store, c)) := by
  refine ⟨?_, ?_, ?_⟩
  · intro s t host scratch projection contents spec id now store' c captured_files hs hgit hcall hnew
      hpath hperm
    have hkept := kept_step (t := { s with store := store' })
      (.freeze_projection host scratch projection contents spec id now) hgit (kept_reach hs)
      (by simp only [step, hcall, State.commit])
    exact recovered hsha (kept_path hpath hkept) hcall hnew (path_grows hpath) hperm
  · intro t spec projection captured_files answer ht hlookup
    exact answered (kept_reach ht) hlookup
  · intro s t objects binding command_key id now store' c hs hcall hpath
    have hkept := kept_step (t := { s with store := store' })
      (.rebind_reviewers objects binding command_key id now) trivial (kept_reach hs)
      (by simp only [step, hcall, State.commit])
    exact rebind_kept (kept_reach hs) (kept_path hpath hkept) hcall (path_grows hpath)

namespace Capturing

def sha (c : Char) (digits : Nat) : String := String.ofList (replicate digits c)

def library : Library where
  sha256 content := if content = [1] then sha 'a' 64 else sha 'b' 64
  sha1 _ := sha 'c' 40
  digest _ := "digest"
  isprintable _ := true
  lower text := text
  casefold text := text

def directory : Directory := fun name =>
  if name = sha 'a' 64 then .bytes [1] true else if name = sha 'b' 64 then .bytes [2] true else .absent

def host : Host where
  nt := false
  objects := directory
  hash_object content := some (library.sha1 (GitTree.object "blob" content))
  mktree rows := if rows.all (·.oid ≠ "") then
    (GitTree.treeBody rows).map fun body => library.sha1 (GitTree.object "tree" body) else none

theorem host_git : Git library host := by
  intro rows i h
  simp only [host, Option.ite_none_right_eq_some, Option.map_eq_some_iff] at h
  obtain ⟨hall, body, hbody, rfl⟩ := h
  exact ⟨by simpa using hall, body, hbody, rfl⟩

theorem library_hex (content : Bytes) : isHex 64 (library.sha256 content) = true := by
  simp only [library]
  split
  · decide +kernel
  · decide +kernel

def spec : Freeze := { Sample.spec with allowed_paths := ["src/a"] }

def registered : String → Option Registered := fun name =>
  some ⟨name, sha 'c' 40, [⟨"100644", "blob", sha 'c' 40, "b", [2]⟩,
    ⟨"100755", "blob", sha 'c' 40, "src/a", [1]⟩]⟩

def start : State := (system library).run empty
  [.register_baseline directory registered "repository" Sample.baseSha]

def projection : List ProjectionRow := [⟨"src/a", sha 'a' 64, true⟩, ⟨"b", sha 'b' 64, false⟩]

def contents : Dict String Bytes := .ofList [("b", [2]), ("src/a", [2])]

/-- Only the file that was changed, as no capture was committed. -/
def smaller : List ProjectionRow := [⟨"src/a", sha 'a' 64, true⟩]

def frozen : State := step library start
  (.freeze_projection host (.ok ()) projection contents spec "candidate" "now")

def binding : ReviewerBinding where
  revision := 1
  source_candidate := ⟨"candidate", "series", 1, "repository", Sample.baseSha, sha 'c' 40, "digest",
    "digest", "input", "digest", "digest", "digest"⟩
  run_id := "run"
  operation_id := "operation"
  reviewer_task_id := "task"
  capture_digest := "capture"
  approval_digest := "approval"
  plan_digest := "plan"
  execution_policy_digest := "policy"
  reviewer_task_digest := "task"
  rulebook_digest := "rulebook"
  reviewer_sources := [⟨⟨"reviewer", 1, some "b", "qualified"⟩, "source", "source"⟩]

def rebound : State := step library frozen
  (.rebind_reviewers directory binding "key" "again" "later")

end Capturing

open Capturing in
theorem capture_recovered_sample : ∃ store' c, freeze_projection library host (.ok ()) start.store
      projection contents spec "candidate" "now" = .ok (store', c) ∧
    lookup_projection_capture library store' spec projection (capturedFiles library contents) = .ok (some c) := by
  have hcall : (freeze_projection library host (.ok ()) start.store projection contents spec
      "candidate" "now").toOption.map (fun r => r.1.candidates.length) = some 1 := by decide +kernel
  obtain ⟨⟨store', c⟩, hcall, hlength⟩ := ok_of_map hcall
  have hempty : start.store.candidates = [] := by decide +kernel
  obtain ⟨hc, honly, -⟩ := (capture_recovered library_hex).1 start { start with store := store' } host
    _ _ _ _ _ _ _ _ (capturedFiles library contents) (.of_run rfl ⟨trivial, trivial⟩) host_git hcall
    (by simp [hempty]) .refl (.refl _)
  refine ⟨store', c, hcall, honly fun r hr _ => ?_⟩
  obtain ⟨only, hcandidates⟩ := length_eq_one_iff.mp hlength
  rw [show store'.candidates = [only] from hcandidates] at hr hc
  exact (mem_singleton.mp hr).trans (mem_singleton.mp hc).symm

open Capturing in
/-- A lookup with a projection that no capture was committed with answers with the revision that
has its files. After a rebinding to the reviewers it had, the capture that was committed is refused
as ambiguous; and the revision that was rebound has another time than its source. -/
theorem capture_not_exact : frozen.store.candidates.map (·.id) = ["candidate"] ∧
    ((lookup_projection_capture library frozen.store spec smaller
      (capturedFiles library (.ofList [("src/a", [2])]))).toOption.map
        fun answer => answer.map (·.id)) = some (some "candidate") ∧
    (lookup_projection_capture library rebound.store spec projection
      (capturedFiles library contents)).isOk = false ∧
    rebound.store.candidates.map (fun r => (r.id, r.frozen_at)) =
      [("candidate", "now"), ("again", "later")] := by decide +kernel

end Karajan.Candidates
