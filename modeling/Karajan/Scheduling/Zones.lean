import Karajan.Scheduling.GrantLaws
import Karajan.Scheduling.Handover

/-!
# Patterns and zones by what they mean

A pattern means the paths at and below its root, and a zone authorises what it
covers as a pattern. Containment and exclusion are decided on the text: they
agree with the meaning but for roots that are spelled like wildcards.
-/

namespace Karajan.Paths

open List
variable {α : Type} {sep : α} {root path : List α} [BEq α] [LawfulBEq α]

theorem under_iff_segments : Under sep root path ↔ root.splitOn sep <+: path.splitOn sep := by
  refine ⟨Under.segments, ?_⟩
  rintro ⟨rest, hrest⟩
  cases rest with
  | nil =>
    rw [append_nil] at hrest
    exact .inl (splitOn_injective sep hrest).symm
  | cons first rest =>
    have hpath : path = root ++ sep :: [sep].intercalate (first :: rest) := by
      rw [← (intercalate_splitOn sep : _ = path), ← hrest,
        intercalate_append sep (splitOn_ne_nil sep root) (by simp), intercalate_splitOn]
    rw [hpath]
    exact under_below

theorem trimmed_of_not_mem {segment : List α} (h : sep ∉ segment) : trimmed sep segment = segment := by
  rw [trimmed, rdropWhile_eq_self_iff]
  intro hsome hlast
  exact h (eq_of_beq hlast ▸ getLast_mem hsome)

theorem trimmed_below (sep : α) (root rest : List α) : trimmed sep (root ++ sep :: rest) =
    if trimmed sep rest = [] then trimmed sep root else root ++ sep :: trimmed sep rest := by
  have hrest : trimmed sep (sep :: rest) = if trimmed sep rest = [] then [] else sep :: trimmed sep rest := by
    rw [← singleton_append, trimmed_append]
    split
    · simp [trimmed, rdropWhile]
    · rfl
  rw [trimmed_append, hrest]
  split <;> simp

theorem trimmed_eq_nil {parts : List (List α)} (h : ∀ part ∈ parts, sep ∉ part) :
    trimmed sep ([sep].intercalate parts) = [] ↔ ∀ part ∈ parts, part = [] := by
  induction parts with
  | nil => simp [trimmed]
  | cons part parts ih =>
    have hpart := trimmed_of_not_mem (h part (by simp))
    cases parts with
    | nil => simp [hpart]
    | cons next parts =>
      have hrest := ih fun part hm => h part (mem_cons_of_mem _ hm)
      rw [intercalate_cons_cons, append_assoc, singleton_append, trimmed_below]
      split
      case isTrue hnil => rw [hpart, forall_mem_cons, ← hrest, and_iff_left hnil]
      case isFalse hsome =>
        rw [forall_mem_cons, ← hrest]
        simp [hsome]

/-- Trimming takes no segment away from the front. -/
theorem splitOn_trimmed {first : List α} (h : sep ∉ first) (rest : List (List α)) :
    ∃ more, (trimmed sep ([sep].intercalate (first :: rest))).splitOn sep = first :: more := by
  cases rest with
  | nil =>
    rw [intercalate_singleton, trimmed_of_not_mem h, splitOn_eq_singleton h]
    exact ⟨[], rfl⟩
  | cons second rest =>
    rw [intercalate_cons_cons, append_assoc, singleton_append, trimmed_below]
    split
    · rw [trimmed_of_not_mem h, splitOn_eq_singleton h]
      exact ⟨[], rfl⟩
    · rw [splitOn_append_cons_self, splitOn_eq_singleton h]
      exact ⟨_, rfl⟩

end Karajan.Paths

namespace Karajan.Scheduling

open Check Paths
variable {P : Platform} {a b one other : String}

-- What a pattern means

/-- A relative path, by its segments. -/
structure RelativePath where
  segments : List (List Char)
  nonempty : segments ≠ []
  named : ∀ s ∈ segments, s ≠ [] ∧ s ≠ ['.'] ∧ s ≠ ['.', '.'] ∧ '/' ∉ s

/-- The root and everything below it. -/
def meaning (pattern : String) : Set RelativePath :=
  {path | segments (patternRoot pattern) <+: path.segments}

def PathForm.path (h : PathForm P a) : RelativePath where
  segments := segments a
  nonempty := List.splitOn_ne_nil _ _
  named s hs := ⟨(h.segmented s hs).1.1, (h.segmented s hs).1.2, (h.segmented s hs).2, not_mem_segment hs⟩

def Accepted (P : Platform) (pattern : String) : Prop :=
  ∃ value code pointer, normalizedPattern P value code pointer = .ok pattern

def AcceptedScope (P : Platform) (scope : List String) : Prop :=
  ∃ value code pointer, normalizedScopes P value code pointer = .ok scope

theorem accepted_iff : Accepted P a ↔ PatternForm P a := by
  simp only [Accepted, normalizedPattern_ok]
  exact ⟨by rintro ⟨_, _, _, _, h⟩; exact h, fun h => ⟨_, .grantInvalid, "", rfl, h⟩⟩

theorem meaning_subset (hb : PatternForm P b) : meaning b ⊆ meaning a ↔
    Under '/' (patternRoot a).toList (patternRoot b).toList := by
  rw [under_iff_segments]
  constructor
  · intro h
    exact h (a := hb.root.path) (List.prefix_refl _)
  · exact fun h path hpath => h.trans hpath

/-- The first is the second, which ends in a wildcard, with one more wildcard. -/
def Doubled (a b : String) : Prop := endsWith b "/**" = true ∧ a = b ++ "/**"

theorem covers_iff_under : patternCovers a b = true ↔
    Under '/' (patternRoot a).toList (patternRoot b).toList ∨ Doubled a b := by
  rw [← patternCovers_iff]
  constructor
  · intro h
    cases hw : endsWith b "/**" with
    | true => exact (patternCovers_root hw h).imp_right fun hab => ⟨hw, hab⟩
    | false => exact .inl (by rwa [patternRoot_plain hw])
  · rintro (h | ⟨-, rfl⟩)
    · exact patternCovers_trans h (by simp [patternCovers])
    · rw [patternCovers_iff, patternRoot_wildcard]
      exact under_refl

theorem Doubled.apart (h : Doubled a b) : ¬ Under '/' (patternRoot a).toList (patternRoot b).toList := by
  obtain ⟨hw, rfl⟩ := h
  rw [← patternCovers_iff, not_covers_root hw]
  exact Bool.false_ne_true

theorem covers_exact (hb : PatternForm P b) :
    (patternCovers a b = true ↔ meaning b ⊆ meaning a) ↔ ¬ Doubled a b := by
  rw [meaning_subset hb, covers_iff_under]
  constructor
  · exact fun h hd => hd.apart (h.mp (.inr hd))
  · exact fun hd => ⟨fun h => h.resolve_right hd, .inl⟩

theorem Doubled.escape (ha : PatternForm P a) (hb : PatternForm P b) (h : Doubled a b) :
    ∃ c, PatternForm P c ∧ patternCovers b c = true ∧ patternCovers a c = false := by
  obtain ⟨hw, rfl⟩ := h
  have hreach : ¬ unreachable P (patternRoot b) := by
    rintro ⟨-, hlong⟩
    have hlength := ha.length
    rw [String.toList_append, patternRoot_toList hw] at hlength
    simp only [wildcard_toList, List.length_append, List.length_cons] at hlength
    omega
  have hno : coversRoot [b ++ "/**"] b = false := by simp [coversRoot]
  obtain ⟨c, hc, hcovers, hescapes⟩ := exists_escape (by simp) hb hw hno hreach
  exact ⟨c, hc, hcovers, by simpa [containsScope] using hescapes⟩

theorem covers_trans_exact (ha : PatternForm P a) (hb : PatternForm P b) :
    (∀ c, PatternForm P c → patternCovers a b = true → patternCovers b c = true →
      patternCovers a c = true) ↔ ¬ Doubled a b := by
  constructor
  · intro h hd
    obtain ⟨c, hc, hcovers, hescapes⟩ := hd.escape ha hb
    rw [h c hc (covers_iff_under.mpr (.inr hd)) hcovers] at hescapes
    cases hescapes
  · rintro hd c - hab hbc
    exact patternCovers_trans (patternCovers_iff.mpr ((covers_iff_under.mp hab).resolve_right hd)) hbc

theorem contains_trans_exact {outer inner : List String} (houter : ScopeForm P outer)
    (hinner : ScopeForm P inner) :
    (∀ paths, (∀ path ∈ paths, PatternForm P path) → containsScope outer inner = true →
      containsScope inner paths = true → containsScope outer paths = true) ↔
    (containsScope outer inner = true → readNarrowed P outer inner) := by
  constructor
  · intro h hcontains pattern hm hw
    by_contra hno
    rw [not_or, Bool.not_eq_true] at hno
    obtain ⟨c, hc, hcovers, hescapes⟩ :=
      exists_escape houter.length.2 (hinner.patterns pattern hm) hw hno.1 hno.2
    have hinside : containsScope inner [c] = true := by
      simpa [containsScope] using ⟨pattern, hm, hcovers⟩
    rw [h [c] (by simpa using hc) hcontains hinside] at hescapes
    cases hescapes
  · exact fun h paths hpaths hcontains => containsScope_read hcontains (h hcontains) hinner.patterns hpaths

/-- Containment is that of the meanings, and transitive, but for a pattern and
the same with one more wildcard, which is accepted as every wildcard in a root is. -/
theorem containment_exact (P : Platform) : (∀ a b, Accepted P a → Accepted P b →
      ((patternCovers a b = true ↔ meaning b ⊆ meaning a) ↔ ¬ Doubled a b) ∧
      ((∀ c, Accepted P c → patternCovers a b = true → patternCovers b c = true →
        patternCovers a c = true) ↔ ¬ Doubled a b)) ∧
    (∀ outer inner, AcceptedScope P outer → AcceptedScope P inner →
      ((∀ paths, (∀ path ∈ paths, Accepted P path) → containsScope outer inner = true →
        containsScope inner paths = true → containsScope outer paths = true) ↔
      (containsScope outer inner = true → readNarrowed P outer inner))) ∧
    (∀ a, patternCovers a a = true) ∧
    (∀ a b, patternCovers a b = true → segments (patternRoot a) <+: segments b) ∧
    ∀ pattern, Accepted P pattern → ((∀ c ∈ (patternRoot pattern).toList, wild c = false) ↔
      ¬ (endsWith pattern "/**" = true ∧ ∃ c ∈ (patternRoot pattern).toList, wild c = true)) := by
  simp only [accepted_iff]
  refine ⟨fun a b ha hb => ⟨covers_exact hb, covers_trans_exact ha hb⟩, ?_, fun a => by simp [patternCovers],
    fun a b h => (patternCovers_iff.mp h).segments, fun pattern h => ?_⟩
  · rintro outer inner ⟨_, _, _, houter⟩ ⟨_, _, _, hinner⟩
    exact contains_trans_exact (normalizedScopes_ok.mp houter).2 (normalizedScopes_ok.mp hinner).2
  · constructor
    · rintro hroot ⟨-, c, hc, hwild⟩
      rw [hroot c hc] at hwild
      cases hwild
    · intro hno c hc
      rw [Bool.eq_false_iff]
      intro hwild
      cases hw : endsWith pattern "/**" with
      | true => exact hno ⟨hw, c, hc, hwild⟩
      | false =>
        rw [patternRoot_plain hw] at hc
        rw [(h.plain.resolve_left (by simp [hw])) c hc] at hwild
        cases hwild

open Sample in
theorem containment_doubled :
    Accepted platform "h/**/**" ∧ Accepted platform "h/**" ∧ Accepted platform "h" ∧
    Accepted platform "h*/**" ∧ patternCovers "h/**/**" "h/**" = true ∧
    patternCovers "h/**" "h" = true ∧ patternCovers "h/**/**" "h" = false := by
  have hread : ∀ pattern ∈ ["h/**/**", "h/**", "h", "h*/**"],
      (normalizedPattern platform (.str pattern) .grantInvalid "").toOption.map id = some pattern := by
    decide +kernel
  have haccepted : ∀ pattern ∈ ["h/**/**", "h/**", "h", "h*/**"], Accepted platform pattern := by
    intro pattern hm
    obtain ⟨_, hok, rfl⟩ := ok_of_map (hread pattern hm)
    exact ⟨_, _, _, hok⟩
  exact ⟨haccepted _ (by simp), haccepted _ (by simp), haccepted _ (by simp), haccepted _ (by simp),
    by decide +kernel, by decide +kernel, by decide +kernel⟩

-- Zones

/-- What folding does to the text of a wildcard and to separators. -/
structure Folds (P : Platform) : Prop where
  star : P.casefold "**" = "**"
  slash : ∀ s : String, '/' ∉ s.toList → '/' ∉ (P.casefold (P.nfc s)).toList

/-- The zone ends in a wildcard, and the other one names a directory below its root by another
name than that of the wildcard. -/
def Astray (P : Platform) (zone other : String) : Prop := endsWith zone "/**" = true ∧ ∃ first rest,
    segments other = segments (patternRoot zone) ++ first :: rest ∧
    segmentKey P first ≠ segmentKey P ['*', '*'] ∧ ∃ segment ∈ first :: rest, segmentKey P segment ≠ []

def Shared (P : Platform) (one other : String) : Prop :=
  ∃ path, PathForm P path ∧ patternCovers one path = true ∧ patternCovers other path = true

theorem Shared.symm (h : Shared P one other) : Shared P other one := by
  obtain ⟨path, hpath, hone, hother⟩ := h
  exact ⟨path, hpath, hother, hone⟩

theorem segments_wildcard (hw : endsWith a "/**" = true) :
    segments a = segments (patternRoot a) ++ [['*', '*']] := by
  rw [segments, patternRoot_toList hw, List.splitOn_append_cons_self,
    List.splitOn_eq_singleton (by decide : '/' ∉ ['*', '*'])]
  rfl

theorem PathForm.root (h : PathForm P a) : PathForm P (patternRoot a) := by
  cases hw : endsWith a "/**" with
  | false => rwa [patternRoot_plain hw]
  | true =>
    have hall : ∀ segment ∈ segments (patternRoot a), segment ∈ segments a := fun segment hm => by
      rw [segments_wildcard hw]
      exact List.mem_append_left _ hm
    have hsome : (patternRoot a).toList ≠ [] := fun hnil =>
      (h.segmented [] (hall [] (by simp [segments, hnil]))).1.1 rfl
    have hchars := patternRoot_toList hw
    have hmem : ∀ c ∈ (patternRoot a).toList, c ∈ a.toList := fun c hc => by
      rw [hchars]
      exact List.mem_append_left _ hc
    have hlength := h.length
    obtain ⟨hhead, hcolon⟩ := h.relative
    refine ⟨⟨List.length_pos_iff.mpr hsome, ?_⟩, fun c hc => h.printable c (hmem c hc), ?_,
      fun hc => h.forward (hmem _ hc), ?_, fun s hs => h.segmented s (hall s hs),
      fun s hs => h.unrooted s (hall s hs)⟩
    · rw [hchars, List.length_append] at hlength
      omega
    · obtain ⟨c, rest, hroot⟩ := List.exists_cons_of_ne_nil hsome
      rw [hchars, hroot] at hhead hcolon
      rw [hroot]
      refine ⟨by simpa using hhead, ?_⟩
      cases rest with
      | nil => simp
      | cons => simpa using hcolon
    · have hnfc := h.composed
      have happend : patternRoot a ++ "/" ++ "**" = a := by
        rw [String.append_assoc]
        exact patternRoot_append hw
      rw [← happend] at hnfc
      exact ((P.nfc_slash (patternRoot a) "**").mp hnfc.symm).1.symm

theorem root_under (a : String) : Under '/' (patternRoot a).toList a.toList :=
  patternCovers_iff.mp (by simp [patternCovers])

theorem shared_iff (hone : PathForm P one) (hother : PathForm P other) : Shared P one other ↔
    Under '/' (patternRoot one).toList (patternRoot other).toList ∨
      Under '/' (patternRoot other).toList (patternRoot one).toList := by
  simp only [Shared, patternCovers_iff]
  constructor
  · rintro ⟨path, -, h, h'⟩
    rw [under_iff_segments, under_iff_segments]
    exact List.prefix_or_prefix_of_prefix h.segments h'.segments
  · rintro (h | h)
    · exact ⟨_, hother.root, h, under_refl⟩
    · exact ⟨_, hone.root, under_refl, h⟩

theorem Folds.star_key (hf : Folds P) : segmentKey P ['*', '*'] = ['*', '*'] := by
  have hnfc : P.nfc (String.ofList ['*', '*']) = "**" := P.nfc_latin _ (by simp)
  rw [segmentKey, hnfc, hf.star]
  rfl

theorem Folds.key_slash (hf : Folds P) {segment : List Char} (h : '/' ∉ segment) :
    '/' ∉ segmentKey P segment := by
  intro hslash
  refine hf.slash (String.ofList segment) (by simpa using h) ?_
  simp only [segmentKey, rstripDotsAndSpaces, List.mem_reverse] at hslash
  exact List.mem_reverse.mp ((List.dropWhile_sublist _).subset hslash)

theorem zoneRoot_below (hbelow : segments other = segments a ++ first :: rest) : (zoneRoot P other).toList =
      let keys := ['/'].intercalate ((first :: rest).map (segmentKey P))
      if trimmed '/' keys = [] then (zoneRoot P a).toList
      else ['/'].intercalate (segmentKeys P a) ++ '/' :: trimmed '/' keys := by
  have hkeys : segmentKeys P other = segmentKeys P a ++ (first :: rest).map (segmentKey P) := by
    rw [segmentKeys, hbelow, List.map_append]
    rfl
  rw [zoneRoot_toList, zoneRoot_toList, hkeys,
    intercalate_append '/' (segmentKeys_ne_nil P a) (by simp), trimmed_below]

/-- A zone that ends in a wildcard overlaps what lies below its root if that
begins with the same name there, or with names that fold to nothing. -/
theorem overlap_below (hf : Folds P) (hw : endsWith a "/**" = true)
    (hbelow : segments other = segments (patternRoot a) ++ first :: rest) :
    zonesOverlap P a other = true ↔ segmentKey P first = segmentKey P ['*', '*'] ∨
      ∀ segment ∈ first :: rest, segmentKey P segment = [] := by
  have hfree : ∀ segment ∈ first :: rest, '/' ∉ segment := fun segment hm => by
    have hmem : segment ∈ segments other := hbelow ▸ List.mem_append_right _ hm
    exact not_mem_segment hmem
  have hkeys : trimmed '/' (['/'].intercalate ((first :: rest).map (segmentKey P))) = [] ↔
      ∀ segment ∈ first :: rest, segmentKey P segment = [] := by
    rw [trimmed_eq_nil]
    · simp
    · intro key hm
      obtain ⟨segment, hsegment, rfl⟩ := List.mem_map.mp hm
      exact hf.key_slash (hfree segment hsegment)
  have hroot : segmentKeys P (patternRoot a) <+: segmentKeys P a := by
    rw [segmentKeys, segmentKeys, segments_wildcard hw, List.map_append]
    exact List.prefix_append _ _
  rw [zonesOverlap_iff]
  constructor
  · intro h
    rw [or_iff_not_imp_right, ← hkeys]
    intro hsome
    have hstar : trimmed '/' (['/'].intercalate ([['*', '*']].map (segmentKey P))) = ['*', '*'] := by
      rw [List.map_singleton, hf.star_key]
      rfl
    have hzone := zoneRoot_below (P := P) (segments_wildcard hw)
    have hother := zoneRoot_below (P := P) hbelow
    simp only [hstar, List.cons_ne_nil, if_false] at hzone
    simp only [if_neg hsome] at hother
    obtain ⟨more, hmore⟩ := splitOn_trimmed (hf.key_slash (hfree first (by simp)))
      (rest.map (segmentKey P))
    rw [hzone, hother, under_iff_segments, under_iff_segments, List.splitOn_append_cons_self,
      List.splitOn_append_cons_self, List.prefix_append_right_inj, List.prefix_append_right_inj,
      List.map_cons, hmore, List.splitOn_eq_singleton (by decide : '/' ∉ ['*', '*'])] at h
    rw [hf.star_key]
    rcases h with h | h
    · exact (List.cons_prefix_cons.mp h).1.symm
    · exact (List.cons_prefix_cons.mp h).1
  · rintro (hsame | hall)
    · refine .inl (zoneRoot_under ?_)
      rw [segmentKeys, segmentKeys, segments_wildcard hw, hbelow, List.map_append, List.map_append,
        List.prefix_append_right_inj, List.map_cons, List.map_cons, hsame]
      exact List.prefix_append [_] _
    · refine .inr ?_
      rw [zoneRoot_below hbelow, if_pos (hkeys.mpr hall)]
      exact zoneRoot_under hroot

theorem Astray.apart (hf : Folds P) (h : Astray P one other) (hone : PathForm P one)
    (hother : PathForm P other) : Shared P one other ∧ zonesOverlap P one other = false := by
  obtain ⟨hw, first, rest, hbelow, hname, segment, hm, hkey⟩ := h
  constructor
  · rw [shared_iff hone hother]
    left
    have hunder : Under '/' (patternRoot one).toList other.toList := by
      rw [under_iff_segments]
      exact ⟨first :: rest, hbelow.symm⟩
    cases hwo : endsWith other "/**" with
    | false => rwa [patternRoot_plain hwo]
    | true =>
      rw [patternRoot_toList hwo] at hunder
      refine (under_split hunder (by decide)).resolve_right fun heq => ?_
      rw [← patternRoot_toList hwo, String.toList_inj] at heq
      rw [heq] at hbelow
      simpa using congrArg List.length hbelow
  · rw [Bool.eq_false_iff, ne_eq, overlap_below hf hw hbelow, not_or]
    exact ⟨hname, fun hall => hkey (hall segment hm)⟩

theorem overlap_of_under (hf : Folds P)
    (h : Under '/' (patternRoot one).toList (patternRoot other).toList) (hno : ¬ Astray P one other) :
    zonesOverlap P one other = true := by
  have hunder := (under_trans h (root_under other)).segments
  cases hw : endsWith one "/**" with
  | false =>
    rw [patternRoot_plain hw] at hunder
    have hwithin : LiesIn P other one := hunder.map _
    exact zonesOverlap_of_liesIn hwithin (List.prefix_refl _)
  | true =>
    obtain ⟨tail, htail⟩ := hunder
    have hbelow : segments other = segments (patternRoot one) ++ tail := htail.symm
    cases tail with
    | nil =>
      have hwithin : LiesIn P one other := by
        refine List.IsPrefix.map _ ?_
        rw [hbelow, List.append_nil, segments_wildcard hw]
        exact List.prefix_append _ _
      exact zonesOverlap_of_liesIn (List.prefix_refl _) hwithin
    | cons first rest =>
      rw [overlap_below hf hw hbelow]
      by_contra hnot
      rw [not_or] at hnot
      refine hno ⟨hw, first, rest, hbelow, hnot.1, ?_⟩
      by_contra hall
      exact hnot.2 fun segment hm => by_contra fun hsome => hall ⟨segment, hm, hsome⟩

/-- Two zones that authorise a common path overlap, but for a zone that ends in
a wildcard and one that goes astray below its root. -/
theorem zones_agree (hf : Folds P) (hone : normalizedPath P value code pointer = .ok one)
    (hother : normalizedPath P value' code' pointer' = .ok other) :
    ((Shared P one other → zonesOverlap P one other = true) ↔ ¬ Astray P one other ∧ ¬ Astray P other one) ∧
    zonesOverlap P one one = true ∧ zonesOverlap P one other = zonesOverlap P other one ∧
    (¬ Astray P one other → ¬ Astray P other one → Shared P one other →
      ∀ store, (schedulingStore P).Reach System.free store → ∀ key, ∀ record ∈ ledgerOf store.db key,
        ∀ record' ∈ ledgerOf store.db key, record.write_zone = one → record'.write_zone = other →
        record.released = false → record'.released = false → record.task_id = record'.task_id) := by
  obtain ⟨-, hone⟩ := normalizedPath_ok.mp hone
  obtain ⟨-, hother⟩ := normalizedPath_ok.mp hother
  have hoverlap : ¬ Astray P one other → ¬ Astray P other one → Shared P one other →
      zonesOverlap P one other = true := by
    intro hno hno' hshared
    rcases (shared_iff hone hother).mp hshared with h | h
    · exact overlap_of_under hf h hno
    · rw [zonesOverlap_comm]
      exact overlap_of_under hf h hno'
  have hself : LiesIn P one one := List.prefix_refl _
  refine ⟨⟨fun h => ⟨fun ha => ?_, fun ha => ?_⟩, fun h => hoverlap h.1 h.2⟩,
    zonesOverlap_of_liesIn hself hself, zonesOverlap_comm P one other, ?_⟩
  · obtain ⟨hshared, hapart⟩ := ha.apart hf hone hother
    rw [h hshared] at hapart
    cases hapart
  · obtain ⟨hshared, hapart⟩ := ha.apart hf hother hone
    rw [zonesOverlap_comm, h hshared.symm] at hapart
    cases hapart
  · intro hno hno' hshared store hreach key record hm record' hm' hzone hzone' hu hu'
    by_contra hne
    have hapart := writers_apart hreach key record hm record' hm' hu hu' hne
    rw [hzone, hzone', hoverlap hno hno' hshared] at hapart
    cases hapart

namespace Sample

theorem folds : Folds platform := ⟨rfl, fun _ h => h⟩

theorem zone_accepted {zone : String} (h : zone ∈ ["d", "d/x", "d/**"]) :
    normalizedPath platform (.str zone) .taskInvalid "" = .ok zone := by
  have hread : ∀ zone ∈ ["d", "d/x", "d/**"],
      (normalizedPath platform (.str zone) .taskInvalid "").toOption.map id = some zone := by decide +kernel
  obtain ⟨_, hok, rfl⟩ := ok_of_map (hread zone h)
  exact hok

theorem shared {zone : String} (h : zone ∈ ["d", "d/x", "d/**"]) : Shared platform zone "d/x" := by
  have hcovers : ∀ zone ∈ ["d", "d/x", "d/**"], patternCovers zone "d/x" = true := by decide +kernel
  exact ⟨"d/x", (normalizedPath_ok.mp (zone_accepted (by simp))).2, hcovers zone h, hcovers "d/x" (by simp)⟩

end Sample

open Sample in
theorem zones_agree_plain : zonesOverlap platform "d" "d/x" = true := by
  have hplain : endsWith "d" "/**" = false ∧ endsWith "d/x" "/**" = false := by decide +kernel
  refine (zones_agree folds (zone_accepted (by simp)) (zone_accepted (by simp))).1.mpr
    ⟨fun h => ?_, fun h => ?_⟩ (shared (by simp))
  · rw [h.1] at hplain
    exact absurd hplain.1 (by decide)
  · rw [h.1] at hplain
    exact absurd hplain.2 (by decide)

open Sample in
theorem zones_astray : normalizedPath platform (.str "d/**") .taskInvalid "" = .ok "d/**" ∧
    normalizedPath platform (.str "d/x") .taskInvalid "" = .ok "d/x" ∧
    Shared platform "d/**" "d/x" ∧ zonesOverlap platform "d/**" "d/x" = false :=
  ⟨zone_accepted (by simp), zone_accepted (by simp), shared (by simp), by decide +kernel⟩

end Karajan.Scheduling
