import Ownership.Proofs.Glob.Meaning

set_option autoImplicit false

/-!
# The meaning of a segment with its stars collapsed

A text that is a glob is one with its stars collapsed as well, and takes the same bytes. A text that
is no glob may become one: where a star ends one range of a class and a star right behind it begins
another one, collapsing makes one range of both, and that range may be in order where the second one
was reversed.
-/
namespace Ownership.Glob
open Ownership.Wild
open Ownership.Text

/-! ## Classes -/

/-- A range whose first character is one byte long has the bytes from there to the first byte of its
last character, and the bytes that this one has behind its first. -/
theorem exists_mem_byteRanges_of_isAscii {first last : Char} (h : IsAscii first) {b : UInt8} :
    (∃ s ∈ byteRanges first last, s.1 ≤ b ∧ b ≤ s.2) ↔
      (UInt8.ofNat first.toNat ≤ b ∧ b ≤ (String.utf8EncodeChar last).headD 0) ∨
        b ∈ (String.utf8EncodeChar last).tail := by
  simp only [byteRanges, bytes_cons, bytes_nil, List.append_nil, encode_of_isAscii h]
  split
  · next heq =>
    rw [← heq, encode_of_isAscii h]
    simp
  · simp only [List.dropLast_singleton, List.map_nil, List.nil_append, List.mem_cons,
      exists_eq_or_imp, exists_mem_singles_iff]
    rfl

theorem splitsAtStar_byte (b : UInt8) :
    SplitsAtStar fun first last => ∃ s ∈ byteRanges first last, s.1 ≤ b ∧ b ≤ s.2 := by
  intro first last hfirst hlast
  have hstar : IsAscii '*' := by decide
  have hascii : IsAscii first := lt_of_le_of_lt (le_iff_toNat_le.mp hfirst) hstar
  have hform := encode_of_isAscii hstar
  have hstart : UInt8.ofNat first.toNat ≤ UInt8.ofNat '*'.toNat := by
    rw [UInt8.le_iff_toNat_le, toNat_ofNat_of_isAscii hascii, toNat_ofNat_of_isAscii hstar]
    exact hfirst
  have hend : UInt8.ofNat '*'.toNat ≤ (String.utf8EncodeChar last).headD 0 :=
    (le_headD_iff hform (by decide)).mpr hlast
  simp only [exists_mem_byteRanges_of_isAscii hascii, exists_mem_byteRanges_of_isAscii hstar,
    hform, List.headD_cons, List.tail_cons, List.not_mem_nil, or_false, ← or_assoc]
  exact or_congr_left (between_iff hstart hend)

theorem ByteClass.Alike.contains_iff_contains {k k' : ByteClass} (h : k.Alike k') (b : UInt8) :
    k'.contains b = true ↔ k.contains b = true := by
  rw [contains_iff, contains_iff, h.negated]
  exact iff_congr (h.lists _ (splitsAtStar_byte b)) Iff.rfl

theorem class_collapseStars {body : List Char} (hbody : AreMembers (members body))
    (horder : ¬ ClassIsReversed body) :
    ¬ ClassIsReversed (collapseStars body) ∧
      ∀ b, ClassTakes (collapseStars body) b ↔ ClassTakes body b := by
  obtain ⟨k, hk⟩ := (exists_readClass_iff hbody).mpr horder
  obtain ⟨k', hk', halike⟩ := readClass_collapseStars hbody hk
  have hbody' := areMembers_collapseStars hbody
  refine ⟨(exists_readClass_iff hbody').mp ⟨k', hk'⟩, ?_⟩
  intro b
  rw [← contains_iff_classTakes hbody' hk', halike.contains_iff_contains,
    contains_iff_classTakes hbody hk]

/-- Whether a reversed stretch begins with a star right behind another star. -/
def ReversedBehindStar (stretches : List Stretch) : Prop :=
  ∃ s t, [s, t] <:+: stretches ∧ s.Meets t ∧ t.IsReversed

theorem ReversedBehindStar.cons {stretches : List Stretch} (h : ReversedBehindStar stretches)
    (s : Stretch) : ReversedBehindStar (s :: stretches) := by
  obtain ⟨t, u, hpair, hboth⟩ := h
  exact ⟨t, u, List.infix_cons hpair, hboth⟩

theorem ReversedBehindStar.of_join {s t : Stretch} (hmeets : s.Meets t) {stretches : List Stretch}
    (h : ReversedBehindStar (s.join t :: stretches)) :
    ReversedBehindStar (t :: stretches) := by
  obtain ⟨u, v, hpair, hmeets', hreversed⟩ := h
  rcases List.infix_cons_iff.mp hpair with hpair | hpair
  · -- `v` is right behind the joined stretch, which ends as `t` does
    obtain ⟨rfl, hnext⟩ := List.cons_prefix_cons.mp hpair
    have hlast : t.range.2 = '*' := by
      rw [← hmeets'.1, Stretch.range_join hmeets]
    have hpair' : [t, v] <+: t :: stretches := List.cons_prefix_cons.mpr ⟨rfl, hnext⟩
    exact ⟨t, v, hpair'.isInfix, ⟨hlast, hmeets'.2⟩, hreversed⟩
  · exact ⟨u, v, List.infix_cons hpair, hmeets', hreversed⟩

/-- A reversed stretch is still one when stars are collapsed, unless it is joined to the stretch in
front of it. -/
theorem exists_isReversed_joinStars {s : Stretch} {stretches : List Stretch}
    (h : ∃ u ∈ s :: stretches, u.IsReversed) :
    (∃ u ∈ joinStars s stretches, u.IsReversed) ∨ ReversedBehindStar (s :: stretches) := by
  induction stretches generalizing s with
  | nil => exact .inl h
  | cons t stretches ih =>
    simp only [List.mem_cons, exists_eq_or_imp] at h ih
    rw [joinStars]
    split
    · next hmeets =>
      by_cases ht : t.IsReversed
      · exact .inr ⟨s, t, (List.prefix_append [s, t] stretches).isInfix, hmeets, ht⟩
      · have hjoin : (s.join t).IsReversed ∨ ∃ u ∈ stretches, u.IsReversed := by
          rcases h with hs | ht' | hrest
          · exact .inl (Stretch.isReversed_join_iff.mpr (.inl hs))
          · exact absurd ht' ht
          · exact .inr hrest
        exact (ih hjoin).imp_right fun hbehind => (hbehind.of_join hmeets).cons s
    · rcases h with hs | hrest
      · exact .inl ⟨s, List.mem_cons_self, hs⟩
      · rcases ih hrest with ⟨u, hu, hreversed⟩ | hbehind
        · exact .inl ⟨u, List.mem_cons_of_mem s hu, hreversed⟩
        · exact .inr (hbehind.cons s)

/-- Whether a class has such a stretch, given by the text between its brackets. -/
def ClassIsReversedBehindStar (body : List Char) : Prop :=
  ∃ stretches dash, AreWritten (members body) stretches dash ∧ ReversedBehindStar stretches

theorem ClassIsReversedBehindStar.isReversed {body : List Char}
    (h : ClassIsReversedBehindStar body) : ClassIsReversed body := by
  obtain ⟨stretches, dash, hwritten, s, t, hpair, -, hreversed⟩ := h
  exact ⟨stretches, dash, hwritten, t, hpair.subset (by simp), hreversed⟩

theorem classIsReversed_collapseStars {body : List Char} (h : ClassIsReversed body) :
    ClassIsReversed (collapseStars body) ∨ ClassIsReversedBehindStar body := by
  obtain ⟨stretches, dash, hwritten, hreversed⟩ := h
  obtain ⟨s, stretches, rfl⟩ := List.exists_cons_of_ne_nil hwritten.ne_nil
  have hcollapsed := areWritten_collapseStars hwritten
  rcases exists_isReversed_joinStars hreversed with hjoined | hbehind
  · exact .inl ⟨_, dash, hcollapsed, hjoined⟩
  · exact .inr ⟨_, dash, hwritten, hbehind⟩

/-! ## Segments -/

def HasReversedBehindStar (cs : List Char) : Prop :=
  ∃ body, Part.closed body ∈ parts cs ∧ ClassIsReversedBehindStar body

theorem hasReversedRange_iff_exists (cs : List Char) :
    HasReversedRange cs ↔ ∃ body, Part.closed body ∈ parts cs ∧ ClassIsReversed body := by
  induction cs using partsInduction with
  | nil =>
    rw [parts_nil]
    refine iff_of_false nofun ?_
    rintro ⟨body, hbody, -⟩
    cases hbody
  | star cs ih =>
    rw [hasReversedRange_cons_iff rfl, ih, parts_star]
    simp
  | any cs ih =>
    rw [hasReversedRange_cons_iff rfl, ih, parts_any]
    simp
  | closed body rest hbody ih =>
    rw [hasReversedRange_closed_iff hbody, ih, parts_closed hbody]
    simp [or_and_right, exists_or]
  | literal c cs hstar hany hopens ih =>
    rw [hasReversedRange_cons_iff hopens, ih, parts_literal hstar hany hopens]
    simp

theorem closed_mem_parts_afterStar_iff {cs : List Char} {body : List Char} :
    Part.closed body ∈ parts (afterStar cs) ↔ Part.closed body ∈ parts (collapseStars cs) := by
  cases cs with
  | nil => rfl
  | cons c cs =>
    by_cases hc : c = '*'
    · subst hc
      rw [afterStar_star, collapseStars_star, parts_star]
      simp
    · rw [afterStar_cons hc]

theorem closed_mem_parts_collapseStars_iff {cs body : List Char} :
    Part.closed body ∈ parts (collapseStars cs) ↔
      ∃ original, Part.closed original ∈ parts cs ∧ body = collapseStars original := by
  induction cs using partsInduction with
  | nil => simp [collapseStars, parts_nil]
  | star cs ih =>
    rw [collapseStars_star, parts_star, parts_star]
    simp [closed_mem_parts_afterStar_iff, ih]
  | any cs ih =>
    rw [collapseStars_cons (by decide), parts_any, parts_any]
    simp [ih]
  | closed inside rest hinside ih =>
    rw [collapseStars_cons (by decide), (collapseStars_append_cons (by decide) inside rest).1,
      parts_closed (areMembers_collapseStars hinside), parts_closed hinside]
    simp [ih]
  | literal c cs hstar hany hopens ih =>
    rw [collapseStars_cons hstar, parts_literal hstar hany (opensClass_collapseStars hopens),
      parts_literal hstar hany hopens]
    simp [ih]

theorem areMembers_of_closed_mem {cs body : List Char} (h : Part.closed body ∈ parts cs) :
    AreMembers (members body) :=
  wellFormed_of_mem_parts cs _ h

theorem hasReversedRange_of_collapseStars {cs : List Char}
    (h : HasReversedRange (collapseStars cs)) : HasReversedRange cs := by
  rw [hasReversedRange_iff_exists] at h ⊢
  obtain ⟨_, hbody, hreversed⟩ := h
  obtain ⟨body, hmem, rfl⟩ := closed_mem_parts_collapseStars_iff.mp hbody
  refine ⟨body, hmem, ?_⟩
  by_contra horder
  exact (class_collapseStars (areMembers_of_closed_mem hmem) horder).1 hreversed

/-- It leaves a reversed range unless that begins with a star right behind another one. -/
theorem hasReversedRange_collapseStars {cs : List Char} (h : HasReversedRange cs) :
    HasReversedRange (collapseStars cs) ∨ HasReversedBehindStar cs := by
  rw [hasReversedRange_iff_exists] at h
  obtain ⟨body, hmem, hreversed⟩ := h
  rcases classIsReversed_collapseStars hreversed with hcollapsed | hbehind
  · refine .inl ((hasReversedRange_iff_exists _).mpr ⟨_, ?_, hcollapsed⟩)
    exact closed_mem_parts_collapseStars_iff.mpr ⟨body, hmem, rfl⟩
  · exact .inr ⟨body, hmem, hbehind⟩

theorem HasReversedBehindStar.hasReversedRange {cs : List Char} (h : HasReversedBehindStar cs) :
    HasReversedRange cs := by
  obtain ⟨body, hmem, hbehind⟩ := h
  exact (hasReversedRange_iff_exists cs).mpr ⟨body, hmem, hbehind.isReversed⟩

theorem means_star_star_iff {cs : List Char} {bs : List UInt8} :
    Means ('*' :: '*' :: cs) bs ↔ Means ('*' :: cs) bs := by
  constructor
  · intro h
    obtain ⟨block, _, rfl, hmore⟩ := means_star_iff.mp h
    obtain ⟨more, rest, rfl, hrest⟩ := means_star_iff.mp hmore
    rw [← List.append_assoc]
    exact .star (block ++ more) hrest
  · exact fun h => .star [] h

theorem means_star_afterStar_iff {cs : List Char} {bs : List UInt8} :
    Means ('*' :: afterStar cs) bs ↔ Means ('*' :: collapseStars cs) bs := by
  cases cs with
  | nil => rfl
  | cons c cs =>
    by_cases hc : c = '*'
    · subst hc
      rw [afterStar_star, collapseStars_star, means_star_star_iff]
    · rw [afterStar_cons hc]

theorem means_collapseStars_iff {cs : List Char} (h : ¬ HasReversedRange cs) {bs : List UInt8} :
    Means (collapseStars cs) bs ↔ Means cs bs := by
  induction cs using partsInduction generalizing bs with
  | nil => rfl
  | star cs ih =>
    rw [hasReversedRange_cons_iff rfl] at h
    rw [collapseStars_star, means_star_afterStar_iff, means_star_iff, means_star_iff]
    simp only [ih h]
  | any cs ih =>
    rw [hasReversedRange_cons_iff rfl] at h
    rw [collapseStars_cons (by decide), means_any_iff, means_any_iff]
    simp only [ih h]
  | closed body rest hbody ih =>
    rw [hasReversedRange_closed_iff hbody, not_or] at h
    have htakes := (class_collapseStars hbody h.1).2
    rw [collapseStars_cons (by decide), (collapseStars_append_cons (by decide) body rest).1,
      means_closed_iff (areMembers_collapseStars hbody), means_closed_iff hbody]
    simp only [htakes, ih h.2]
  | literal c cs hstar hany hopens ih =>
    rw [hasReversedRange_cons_iff hopens] at h
    rw [collapseStars_cons hstar, means_literal_iff hstar hany (opensClass_collapseStars hopens),
      means_literal_iff hstar hany hopens]
    simp only [ih h]

/-! ## Glob text -/

def takes (branches : List (List (Step ByteTest))) (bytes : List UInt8) : Bool :=
  branches.any fun steps => Wild.accepts ByteTest.passes steps bytes

/-- What two texts are read to: both are no glob, or both are one that takes the same bytes. -/
inductive SameGlob : Except GlobError (List (List (Step ByteTest))) →
    Except GlobError (List (List (Step ByteTest))) → Prop where
  | fails (e e' : GlobError) : SameGlob (.error e) (.error e')
  | builds {branches branches' : List (List (Step ByteTest))}
      (h : ∀ bytes, takes branches' bytes = takes branches bytes) :
      SameGlob (.ok branches) (.ok branches')

theorem exists_readGlob_iff (cs : List Char) :
    (∃ branches, readGlob (escape cs) = .ok branches) ↔ ¬ HasReversedRange cs := by
  rw [← exists_readParts_iff, readGlob_escape]
  constructor
  · rintro ⟨branches, h⟩
    obtain ⟨steps, hsteps, -⟩ := map_eq_ok_iff.mp h
    exact ⟨steps, hsteps⟩
  · rintro ⟨steps, hsteps⟩
    exact ⟨_, map_eq_ok_iff.mpr ⟨steps, hsteps, rfl⟩⟩

theorem exists_readGlob_error_iff (cs : List Char) :
    (∃ e, readGlob (escape cs) = .error e) ↔ HasReversedRange cs := by
  rw [exists_error_iff, exists_readGlob_iff, not_not]

theorem takes_iff_means {cs : List Char} {branches : List (List (Step ByteTest))}
    (h : readGlob (escape cs) = .ok branches) (bytes : List UInt8) :
    takes branches bytes = true ↔ Means cs bytes := by
  rw [readGlob_escape] at h
  obtain ⟨steps, hsteps, rfl⟩ := map_eq_ok_iff.mp h
  rw [takes, List.any_cons, List.any_nil, Bool.or_false, Wild.accepts_iff_cut]
  exact cut_iff_means cs steps hsteps bytes

/-- A segment as it is and with its stars collapsed are the same glob, or neither is one, unless a
class has a reversed range that begins with a star right behind another star and no range is
reversed in the collapsed text. Then only the collapsed text is a glob. -/
theorem sameGlob_collapseStars_iff (segment : String) :
    (SameGlob (readGlob (escape segment.toList))
        (readGlob (escape (collapseStars segment.toList))) ↔
      (HasReversedBehindStar segment.toList →
        HasReversedRange (collapseStars segment.toList))) ∧
    (¬ SameGlob (readGlob (escape segment.toList))
        (readGlob (escape (collapseStars segment.toList))) →
      (∃ e, readGlob (escape segment.toList) = .error e) ∧
        ∃ branches, readGlob (escape (collapseStars segment.toList)) = .ok branches) := by
  by_cases hraw : HasReversedRange segment.toList
  · obtain ⟨e, he⟩ := (exists_readGlob_error_iff _).mpr hraw
    by_cases hcollapsed : HasReversedRange (collapseStars segment.toList)
    · obtain ⟨e', he'⟩ := (exists_readGlob_error_iff _).mpr hcollapsed
      have hsame := SameGlob.fails e e'
      rw [← he, ← he'] at hsame
      exact ⟨iff_of_true hsame fun _ => hcollapsed, fun h => absurd hsame h⟩
    · obtain ⟨branches, hbranches⟩ := (exists_readGlob_iff _).mpr hcollapsed
      have hbehind := (hasReversedRange_collapseStars hraw).resolve_left hcollapsed
      refine ⟨iff_of_false ?_ fun h => hcollapsed (h hbehind), fun _ => ⟨⟨e, he⟩, _, hbranches⟩⟩
      rw [he, hbranches]
      nofun
  · obtain ⟨branches, hbranches⟩ := (exists_readGlob_iff _).mpr hraw
    obtain ⟨branches', hbranches'⟩ :=
      (exists_readGlob_iff _).mpr (mt hasReversedRange_of_collapseStars hraw)
    have hsame : SameGlob (readGlob (escape segment.toList))
        (readGlob (escape (collapseStars segment.toList))) := by
      rw [hbranches, hbranches']
      refine .builds fun bytes => ?_
      rw [Bool.eq_iff_iff, takes_iff_means hbranches, takes_iff_means hbranches',
        means_collapseStars_iff hraw]
    exact ⟨iff_of_true hsame fun h => absurd h.hasReversedRange hraw, fun h => absurd hsame h⟩

/-- The range from `*` to `$` is reversed. Collapsing makes it an end of the range from `#`. -/
theorem not_sameGlob_collapseStars_chained :
    readGlob (escape "[#-**-$]".toList) = .error (.invalidRange '*' '$') ∧
      (∃ g, ofSegment "[#-**-$]" = .ok g ∧ g.accepts "$" = true) ∧
      ¬ SameGlob (readGlob (escape "[#-**-$]".toList))
        (readGlob (escape (collapseStars "[#-**-$]".toList))) := by
  have hraw : readGlob (escape "[#-**-$]".toList) = .error (.invalidRange '*' '$') := by
    decide +kernel
  have hcollapsed : readGlob (escape (collapseStars "[#-**-$]".toList)) =
      .ok [[.one (.oneOf ⟨false, [('#', '$')]⟩)]] := by decide +kernel
  refine ⟨hraw, exists_ok_of_any (by decide +kernel), ?_⟩
  rw [hraw, hcollapsed]
  nofun

end Ownership.Glob
