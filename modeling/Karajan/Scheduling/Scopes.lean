import Karajan.Lib.Paths
import Karajan.Scheduling.Values

/-!
# What a scope covers

A pattern has a root, the path its wildcard stands below, and covers the paths
under that root. A pattern `a/**` is covered by every pattern that covers `a`,
and by one that does not: `a/**/**`, whose root is the text `a/**` itself.
-/

namespace Karajan.Scheduling

open List Check Paths

def patternRoot (pattern : String) : String :=
  if endsWith pattern "/**" then dropEnd 3 pattern else pattern

theorem wildcard_toList : "/**".toList = ['/', '*', '*'] := by simp

theorem patternRoot_append (h : endsWith pattern "/**" = true) : patternRoot pattern ++ "/**" = pattern := by
  have happend := dropEnd_append h
  rw [patternRoot, if_pos h]
  exact happend

theorem patternRoot_plain (h : endsWith pattern "/**" = false) : patternRoot pattern = pattern := by
  simp [patternRoot, h]

@[simp] theorem patternRoot_wildcard (root : String) : patternRoot (root ++ "/**") = root := by
  have hdrop : dropEnd "/**".toList.length (root ++ "/**") = root := dropEnd_of_append
  rw [patternRoot, if_pos endsWith_append]
  exact hdrop

theorem startsWith_slash :
    startsWith candidate (root ++ "/") = true ↔ root.toList ++ ['/'] <+: candidate.toList := by
  simp [startsWith_iff]

open String (toList_append toList_inj toList ofList)

theorem under_wildcard (root : String) : Under '/' root.toList (root ++ "/**").toList := by
  rw [toList_append, wildcard_toList]
  exact under_below

theorem patternCovers_iff : patternCovers pattern candidate = true ↔
    Under '/' (patternRoot pattern).toList candidate.toList := by
  unfold patternCovers
  split
  case isTrue h =>
    subst h
    cases hw : endsWith pattern "/**" with
    | true =>
      have hunder := under_wildcard (patternRoot pattern)
      rw [patternRoot_append hw] at hunder
      simp [hunder]
    | false => simp [patternRoot_plain hw, under_refl]
  case isFalse hne =>
    split
    case isTrue hw =>
      have hroot : dropEnd 3 pattern = patternRoot pattern := by rw [patternRoot, if_pos hw]
      simp only [hroot, Bool.or_eq_true, beq_iff_eq, startsWith_slash, patternRoot_append hw]
      constructor
      · rintro ((rfl | h) | h)
        · exact under_refl
        · exact .inr h
        · exact absurd h.symm hne
      · rintro (h | h)
        · exact .inl (.inl (toList_inj.mp h))
        · exact .inl (.inr h)
    case isFalse hw =>
      have hplain := patternRoot_plain (by simpa using hw)
      simp only [hplain, Bool.or_eq_true, Bool.and_eq_true, beq_iff_eq, startsWith_slash]
      constructor
      · rintro (h | ⟨hc, h⟩)
        · exact .inr h
        · have hroot : patternRoot candidate = pattern := by rw [patternRoot, if_pos hc, h]
          have hunder := under_wildcard (patternRoot candidate)
          rwa [patternRoot_append hc, hroot] at hunder
      · rintro (h | h)
        · exact absurd (toList_inj.mp h).symm hne
        · exact .inl h

theorem containsScope_iff {inner : List String} : containsScope outer inner = true ↔
    ∀ candidate ∈ inner, ∃ pattern ∈ outer, Under '/' (patternRoot pattern).toList candidate.toList := by
  simp [containsScope, patternCovers_iff]

theorem containsScope_self (scope : List String) : containsScope scope scope = true := by
  rw [containsScope_iff]
  intro pattern hp
  exact ⟨pattern, hp, patternCovers_iff.mp (by simp [patternCovers])⟩

/-- What covers a wildcard pattern covers its root, unless it is that pattern
with one more wildcard. -/
theorem patternCovers_root {outer : String} (hw : endsWith pattern "/**" = true)
    (h : patternCovers outer pattern = true) :
    patternCovers outer (patternRoot pattern) = true ∨ outer = pattern ++ "/**" := by
  rw [patternCovers_iff] at h ⊢
  have hpattern := congrArg toList (patternRoot_append hw)
  rw [toList_append, wildcard_toList] at hpattern
  rw [← hpattern] at h
  rcases under_split h (by simp) with hunder | hroot
  · exact .inl hunder
  · right
    rw [hpattern] at hroot
    have hroot := toList_inj.mp hroot
    cases hwo : endsWith outer "/**" with
    | true => rw [← hroot, patternRoot_append hwo]
    | false =>
      -- a plain pattern is no wildcard pattern
      rw [patternRoot_plain hwo] at hroot
      rw [hroot, hw] at hwo; cases hwo

theorem patternCovers_trans {outer : String} (h : patternCovers outer (patternRoot pattern) = true)
    (hc : patternCovers pattern candidate = true) : patternCovers outer candidate = true := by
  rw [patternCovers_iff] at *
  exact under_trans h hc

theorem not_covers_root (hw : endsWith pattern "/**" = true) :
    patternCovers (pattern ++ "/**") (patternRoot pattern) = false := by
  have hpattern := congrArg toList (patternRoot_append hw)
  rw [toList_append, wildcard_toList] at hpattern
  cases hc : patternCovers (pattern ++ "/**") (patternRoot pattern) with
  | false => rfl
  | true =>
    rw [patternCovers_iff, patternRoot_wildcard, ← hpattern] at hc
    exact absurd hc not_under_below

-- Narrowed scopes

/-- Some outer pattern covers the inner one, and is not it with one more wildcard. -/
def coversRoot (outer : List String) (inner : String) : Bool :=
  outer.any fun pattern => patternCovers pattern inner && pattern ≠ inner ++ "/**"

/-- Every wildcard pattern of the inner scope is covered with its root. -/
def scopeNarrowed (outer inner : List String) : Bool :=
  inner.all fun pattern => !endsWith pattern "/**" || coversRoot outer pattern

theorem coversRoot_iff (hw : endsWith pattern "/**" = true) :
    coversRoot outer pattern = true ↔ containsScope outer [patternRoot pattern] = true := by
  simp only [coversRoot, containsScope, any_eq_true, Bool.and_eq_true, decide_eq_true_eq,
    all_cons, all_nil, and_true]
  constructor
  · rintro ⟨outer_pattern, hmem, hcovers, hne⟩
    exact ⟨outer_pattern, hmem, (patternCovers_root hw hcovers).resolve_right hne⟩
  · rintro ⟨outer_pattern, hmem, hcovers⟩
    refine ⟨outer_pattern, hmem, ?_, ?_⟩
    · refine patternCovers_trans hcovers ?_
      rw [patternCovers_iff]
      have hunder := under_wildcard (patternRoot pattern)
      rwa [patternRoot_append hw] at hunder
    · rintro rfl
      rw [not_covers_root hw] at hcovers; cases hcovers

theorem containsScope_trans {inner paths : List String} (h : containsScope outer inner = true)
    (hn : scopeNarrowed outer inner = true) (hp : containsScope inner paths = true) :
    containsScope outer paths = true := by
  simp only [containsScope, all_eq_true, any_eq_true] at *
  intro path hpath
  obtain ⟨pattern, hmem, hcovers⟩ := hp path hpath
  cases hw : endsWith pattern "/**" with
  | true =>
    have hroot : coversRoot outer pattern = true := by
      simpa [hw] using (List.all_eq_true.mp hn) pattern hmem
    have hcontains := (coversRoot_iff hw).mp hroot
    simp only [containsScope, all_cons, all_nil, Bool.and_true, any_eq_true] at hcontains
    obtain ⟨outer_pattern, homem, hocovers⟩ := hcontains
    exact ⟨outer_pattern, homem, patternCovers_trans hocovers hcovers⟩
  | false =>
    obtain ⟨outer_pattern, homem, hocovers⟩ := h pattern hmem
    refine ⟨outer_pattern, homem, patternCovers_trans ?_ hcovers⟩
    rwa [patternRoot_plain hw]

-- Accepted paths and patterns

structure PathForm (P : Platform) (path : String) : Prop where
  length : 1 ≤ path.toList.length ∧ path.toList.length ≤ 256
  printable : ∀ c ∈ path.toList, ¬ unprintable c = true
  relative : (path.toList.head? ≠ some '/' ∧ path.toList.head? ≠ some '\\') ∧
    path.toList[1]? ≠ some ':'
  forward : '\\' ∉ path.toList
  composed : path = P.nfc path
  segmented : ∀ segment ∈ segments path, (¬ segment = [] ∧ ¬ segment = ['.']) ∧ ¬ segment = ['.', '.']
  unrooted : ∀ segment ∈ segments path, ¬ segment.head? = some '/'

theorem normalizedPath_ok : normalizedPath P value code pointer = .ok path ↔
    value = .str path ∧ PathForm P path := by
  simp only [normalizedPath, bind_ok, need_ok, ensure_ok, pure_ok, Json.str?_eq_some,
    Bool.and_eq_true, decide_eq_true_eq, Bool.not_eq_true', Bool.or_eq_false_iff,
    beq_eq_false_iff_ne, beq_iff_eq, contains_eq_mem, decide_eq_false_iff_not,
    any_eq_false, Bool.or_eq_true, not_or]
  constructor
  · rintro ⟨text, rfl, -, hlength, -, hprint, -, hrel, -, hforward, -, hnfc, -, hseg, -, hhead, rfl⟩
    exact ⟨rfl, hlength, hprint, hrel, hforward, hnfc, hseg, hhead⟩
  · rintro ⟨rfl, h⟩
    exact ⟨path, rfl, (), h.length, (), h.printable, (), h.relative, (), h.forward, (), h.composed,
      (), h.segmented, (), h.unrooted, rfl⟩

def wild (c : Char) : Bool := c = '*' || c = '?' || c = '['

structure PatternForm (P : Platform) (pattern : String) : Prop where
  length : pattern.toList.length ≤ 256
  root : PathForm P (patternRoot pattern)
  plain : endsWith pattern "/**" = true ∨ ∀ c ∈ pattern.toList, wild c = false

theorem normalizedPattern_ok : normalizedPattern P value code pointer = .ok pattern ↔
    value = .str pattern ∧ PatternForm P pattern := by
  simp only [normalizedPattern, bind_ok, need_ok, ensure_ok, Json.str?_eq_some, Bool.and_eq_true,
    decide_eq_true_eq]
  constructor
  · rintro ⟨text, rfl, -, hlength, h⟩
    split at h
    case isTrue hw =>
      simp only [bind_ok, ensure_ok, pure_ok, normalizedPath_ok, Json.str.injEq] at h
      obtain ⟨-, -, path, ⟨rfl, hpath⟩, rfl⟩ := h
      have hroot : dropEnd 3 text = patternRoot text := by rw [patternRoot, if_pos hw]
      rw [hroot, patternRoot_append hw]
      exact ⟨rfl, hlength.2, hroot ▸ hpath, .inl hw⟩
    case isFalse hw =>
      simp only [bind_ok, ensure_ok, normalizedPath_ok, Json.str.injEq] at h
      obtain ⟨-, hplain, rfl, hpath⟩ := h
      have hw : endsWith text "/**" = false := by simpa using hw
      refine ⟨rfl, hlength.2, by rwa [patternRoot_plain hw], .inr fun c hc => ?_⟩
      simp only [contains_eq_mem, Bool.not_eq_true', Bool.or_eq_false_iff, decide_eq_false_iff_not] at hplain
      simp only [wild, Bool.or_eq_false_iff, decide_eq_false_iff_not]
      refine ⟨⟨?_, ?_⟩, ?_⟩ <;> rintro rfl
      · exact hplain.1.1 hc
      · exact hplain.1.2 hc
      · exact hplain.2 hc
  · rintro ⟨rfl, h⟩
    refine ⟨pattern, rfl, (), ⟨?_, h.length⟩, ?_⟩
    · have hlength := h.root.length.1
      cases hw : endsWith pattern "/**" with
      | true =>
        have happend := congrArg (fun s => s.toList.length) (patternRoot_append hw)
        simp only [toList_append, length_append] at happend
        omega
      | false => rwa [patternRoot_plain hw] at hlength
    · split
      case isTrue hw =>
        have hroot : dropEnd 3 pattern = patternRoot pattern := by rw [patternRoot, if_pos hw]
        simp only [bind_ok, ensure_ok, pure_ok, normalizedPath_ok, Json.str.injEq, hroot]
        refine ⟨(), ?_, _, ⟨rfl, h.root⟩, patternRoot_append hw⟩
        have hlength := h.root.length.1
        simp only [bne_iff_ne, ne_eq]
        intro hempty
        rw [hempty] at hlength
        simp at hlength
      case isFalse hw =>
        have hplain := h.plain.resolve_left hw
        have hw : endsWith pattern "/**" = false := by simpa using hw
        simp only [bind_ok, ensure_ok, normalizedPath_ok]
        refine ⟨(), ?_, trivial, by have := h.root; rwa [patternRoot_plain hw] at this⟩
        simp only [contains_eq_mem, Bool.not_eq_true', Bool.or_eq_false_iff, decide_eq_false_iff_not]
        refine ⟨⟨?_, ?_⟩, ?_⟩ <;> intro hc <;> exact absurd (hplain _ hc) (by decide)

-- One segment further

theorem fresh_letter (marks : List (Option Char)) (h : marks.length ≤ 256) :
    ∃ c : Char, 256 ≤ c.toNat ∧ c.toNat < 0x300 ∧ some c ∉ marks := by
  by_contra hno
  push Not at hno
  have hval : ∀ n < 512, (Char.ofNat (256 + n)).toNat = 256 + n := by
    intro n hn
    have hvalid : (256 + n).isValidChar := .inl (by omega)
    rw [Char.ofNat, dif_pos hvalid]
    rfl
  have hsub : (range 512).map (fun n => some (Char.ofNat (256 + n))) ⊆ marks := by
    intro mark hm
    obtain ⟨n, hn, rfl⟩ := List.mem_map.mp hm
    rw [mem_range] at hn
    exact hno _ (by rw [hval n hn]; omega) (by rw [hval n hn]; omega)
  have hnodup : ((range 512).map fun n => some (Char.ofNat (256 + n))).Nodup := by
    refine List.Nodup.map_on (fun n hn n' hn' he => ?_) nodup_range
    rw [mem_range] at hn hn'
    have hc := congrArg Char.toNat (Option.some.inj he)
    rw [hval n hn, hval n' hn'] at hc
    omega
  have hlength := (subperm_of_subset hnodup hsub).length_le
  simp at hlength
  omega

def segmentBelow (path : String) (c : Char) : String := path ++ "/" ++ ofList [c]

@[simp] theorem segmentBelow_toList (path : String) (c : Char) :
    (segmentBelow path c).toList = path.toList ++ '/' :: [c] := by
  simp [segmentBelow]

theorem letter_ne {c d : Char} (hc : 256 ≤ c.toNat) (hd : d.toNat < 256 := by decide) : c ≠ d := by
  rintro rfl
  omega

theorem PathForm.below (h : PathForm P path) (hlength : path.toList.length ≤ 254) {c : Char}
    (hc : 256 ≤ c.toNat) (hc' : c.toNat < 0x300) : PathForm P (segmentBelow path c) := by
  have hsegments : segments (segmentBelow path c) = segments path ++ [[c]] := by
    rw [segments, segmentBelow_toList, splitOn_append_cons_self]
    rw [splitOn_eq_singleton (show '/' ∉ [c] by simpa using (letter_ne hc).symm)]
    rfl
  obtain ⟨hhead, hcolon⟩ := h.relative
  refine ⟨?_, ?_, ?_, ?_, ?_, ?_, ?_⟩
  · simp only [segmentBelow_toList, length_append, length_cons, length_nil]
    omega
  · intro d hd
    rw [segmentBelow_toList] at hd
    simp only [mem_append, mem_cons, not_mem_nil, or_false] at hd
    rcases hd with hd | rfl | rfl
    · exact h.printable d hd
    · decide
    · simp only [unprintable, Bool.or_eq_true, decide_eq_true_eq, beq_iff_eq, not_or]
      exact ⟨fun hlt => by have : d.toNat < 32 := hlt; omega, letter_ne hc⟩
  · cases hpath : path.toList with
    | nil => rw [hpath] at hlength; have := h.length.1; rw [hpath] at this; simp at this
    | cons a rest =>
      rw [hpath] at hhead hcolon
      rw [segmentBelow_toList, hpath]
      refine ⟨by simpa using hhead, ?_⟩
      cases rest with
      | nil => simp
      | cons => simpa using hcolon
  · rw [segmentBelow_toList]
    simp only [mem_append, mem_cons, not_mem_nil, or_false, not_or]
    exact ⟨h.forward, by decide, (letter_ne hc).symm⟩
  · refine ((P.nfc_slash path (ofList [c])).mpr ⟨h.composed.symm, P.nfc_latin _ ?_⟩).symm
    intro d hd
    rw [String.toList_ofList, mem_singleton] at hd
    rw [hd]; exact hc'
  · intro segment hm
    rw [hsegments] at hm
    rcases List.mem_append.mp hm with hm | hm
    · exact h.segmented segment hm
    · rw [List.mem_singleton.mp hm]
      simpa using letter_ne (d := '.') hc
  · intro segment hm
    rw [hsegments] at hm
    rcases List.mem_append.mp hm with hm | hm
    · exact h.unrooted segment hm
    · rw [List.mem_singleton.mp hm]
      simpa using letter_ne (d := '/') hc

theorem PathForm.not_open (h : PathForm P path) : path.toList ≠ front ++ ['/'] := by
  intro hpath
  have hempty : [] ∈ segments path := by
    rw [segments, hpath, splitOn_append_cons_self]
    simp
  exact (h.segmented [] hempty).1.1 rfl

-- What a task may read

/-- A root that is no pattern by itself, and too long for one to be written below it. -/
def unreachable (P : Platform) (root : String) : Prop := ¬ PatternForm P root ∧ 251 < root.toList.length

/-- Every wildcard pattern of the inner scope is covered with its root, unless
no pattern under that root can be written but the wildcard one. -/
def readNarrowed (P : Platform) (outer inner : List String) : Prop :=
  ∀ pattern ∈ inner, endsWith pattern "/**" = true →
    coversRoot outer pattern = true ∨ unreachable P (patternRoot pattern)

theorem patternRoot_toList (h : endsWith pattern "/**" = true) :
    pattern.toList = (patternRoot pattern).toList ++ '/' :: ['*', '*'] := by
  have hpattern := congrArg toList (patternRoot_append h)
  rw [toList_append, wildcard_toList] at hpattern
  exact hpattern.symm

theorem under_unreachable (hroot : PathForm P root) (hno : unreachable P root)
    (hs : PatternForm P candidate) (hu : Under '/' root.toList candidate.toList) : candidate = root ++ "/**" := by
  obtain ⟨hform, hlong⟩ := hno
  cases hw : endsWith candidate "/**" with
  | true =>
    have hcandidate := patternRoot_toList hw
    have hbound := hs.length
    rw [hcandidate] at hu hbound
    simp only [length_append, length_cons, length_nil] at hbound
    rcases under_split hu (by simp) with hunder | hroot'
    · rcases hunder with heq | hprefix
      · rw [← patternRoot_append hw, toList_inj.mp heq]
      · -- the root and one slash fill the pattern, and leave no segment
        obtain ⟨tail, htail⟩ := hprefix
        have hlength := congrArg length htail
        simp only [length_append, length_cons, length_nil] at hlength
        have hnil : tail = [] := eq_nil_of_length_eq_zero (by omega)
        rw [hnil, append_nil] at htail
        exact absurd htail.symm hs.root.not_open
    · rw [← hcandidate] at hroot'
      exact absurd (toList_inj.mp hroot' ▸ hs) hform
  | false =>
    -- a plain pattern under the root makes the root a plain pattern
    have hplain : ∀ c ∈ root.toList, wild c = false := by
      intro c hc
      refine (hs.plain.resolve_left (by simp [hw])) c ?_
      rcases hu with heq | hprefix
      · rw [heq]; exact hc
      · exact hprefix.subset (by simp [hc])
    have hplainRoot : endsWith root "/**" = false := by
      cases hwr : endsWith root "/**" with
      | false => rfl
      | true =>
        have hstar : '*' ∈ root.toList := by rw [patternRoot_toList hwr]; simp
        exact absurd (hplain _ hstar) (by decide)
    refine absurd ⟨hroot.length.2, ?_, .inr hplain⟩ hform
    rwa [patternRoot_plain hplainRoot]

theorem containsScope_read {inner paths : List String} (h : containsScope outer inner = true)
    (hn : readNarrowed P outer inner) (hinner : ∀ pattern ∈ inner, PatternForm P pattern)
    (hpaths : ∀ path ∈ paths, PatternForm P path) (hp : containsScope inner paths = true) :
    containsScope outer paths = true := by
  simp only [containsScope, all_eq_true, any_eq_true] at *
  intro path hpath
  obtain ⟨pattern, hmem, hcovers⟩ := hp path hpath
  obtain ⟨outer_pattern, homem, hocovers⟩ := h pattern hmem
  cases hw : endsWith pattern "/**" with
  | true =>
    rcases hn pattern hmem hw with hroot | hno
    · have hcontains := (coversRoot_iff hw).mp hroot
      simp only [containsScope, all_cons, all_nil, Bool.and_true, any_eq_true]
        at hcontains
      obtain ⟨root_pattern, hrmem, hrcovers⟩ := hcontains
      exact ⟨root_pattern, hrmem, patternCovers_trans hrcovers hcovers⟩
    · have hsame := under_unreachable (hinner pattern hmem).root hno (hpaths path hpath)
        (patternCovers_iff.mp hcovers)
      rw [patternRoot_append hw] at hsame
      exact ⟨outer_pattern, homem, hsame ▸ hocovers⟩
  | false =>
    refine ⟨outer_pattern, homem, patternCovers_trans ?_ hcovers⟩
    rwa [patternRoot_plain hw]

theorem exists_escape (houter : outer.length ≤ 256)
    (hform : PatternForm P pattern) (hw : endsWith pattern "/**" = true)
    (hno : coversRoot outer pattern = false) (hreach : ¬ unreachable P (patternRoot pattern)) :
    ∃ escape, PatternForm P escape ∧ patternCovers pattern escape = true ∧
      containsScope outer [escape] = false := by
  have huncovered : ∀ outer_pattern ∈ outer,
      ¬ Under '/' (patternRoot outer_pattern).toList (patternRoot pattern).toList := by
    intro outer_pattern hmem hunder
    have hcontains : containsScope outer [patternRoot pattern] = true := by
      rw [containsScope_iff]
      intro candidate hc
      rw [List.mem_singleton.mp hc]
      exact ⟨outer_pattern, hmem, hunder⟩
    rw [← coversRoot_iff hw, hno] at hcontains; cases hcontains
  by_cases hroot : PatternForm P (patternRoot pattern)
  · refine ⟨patternRoot pattern, hroot, patternCovers_iff.mpr under_refl, ?_⟩
    rw [Bool.eq_false_iff, ne_eq, ← coversRoot_iff hw, hno]
    decide
  · -- a letter no outer pattern continues the root with
    have hshort : (patternRoot pattern).toList.length ≤ 251 := by
      by_contra hlong
      exact hreach ⟨hroot, by omega⟩
    obtain ⟨c, hc, hc', hfresh⟩ := fresh_letter (outer.map fun outer_pattern =>
      (patternRoot outer_pattern).toList[(patternRoot pattern).toList.length + 1]?) (by simpa)
    let path := segmentBelow (patternRoot pattern) c
    refine ⟨path ++ "/**", ⟨?_, ?_, .inl endsWith_append⟩, ?_, ?_⟩
    · simp only [path, toList_append, segmentBelow_toList, wildcard_toList,
        length_append, length_cons, length_nil]
      omega
    · rw [patternRoot_wildcard]
      exact hform.root.below (by omega) hc hc'
    · rw [patternCovers_iff]
      refine under_trans ?_ (under_wildcard path)
      rw [segmentBelow_toList]
      exact under_below
    · rw [Bool.eq_false_iff, ne_eq, containsScope_iff]
      intro hcovered
      obtain ⟨outer_pattern, hmem, hunder⟩ := hcovered _ (List.mem_singleton.mpr rfl)
      refine hfresh (List.mem_map.mpr ⟨outer_pattern, hmem, ?_⟩)
      rw [toList_append, wildcard_toList] at hunder
      have hslash : '/' ∉ [c] := by simpa using (letter_ne hc).symm
      rcases under_split hunder (by simp) with hbelow | heq
      · rw [segmentBelow_toList] at hbelow
        rcases under_split hbelow hslash with habove | heq
        · exact absurd habove (huncovered outer_pattern hmem)
        · simp [heq]
      · simp [heq, path]

end Karajan.Scheduling
