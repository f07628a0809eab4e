import Ownership.Proofs.Glob.Encoded
import Ownership.Proofs.Glob.Members

set_option autoImplicit false

/-!
# What a wildcard segment means

In the text of a segment a star stands for any bytes, `?` for one byte, a class for one byte that it
lists, or, if it is negated, does not list, and every other character for itself: braces, commas, a
`]` outside of a class, a `[` that no `]` closes. Escaping keeps this meaning under the rules of
glob text, where more characters have one, and a segment fails to compile exactly when one of its
classes has a reversed range.
-/
namespace Ownership.Glob
open Ownership.Wild

/-! ## The meaning of a segment's text -/

def ListsByte (ranges : List (Char × Char)) (b : UInt8) : Prop :=
  ∃ r ∈ ranges, ∃ s ∈ byteRanges r.1 r.2, s.1 ≤ b ∧ b ≤ s.2

def ClassTakes (body : List Char) (b : UInt8) : Prop :=
  ∃ stretches dash, AreWritten (members body) stretches dash ∧
    (ListsByte (rangesOf stretches dash) b ↔ isNegated body = false)

def ClassIsReversed (body : List Char) : Prop :=
  ∃ stretches dash, AreWritten (members body) stretches dash ∧ ∃ s ∈ stretches, s.IsReversed

/-- The bytes that the text of a segment stands for. -/
inductive Means : List Char → List UInt8 → Prop where
  | nil : Means [] []
  | star {cs : List Char} {bs : List UInt8} (block : List UInt8) (rest : Means cs bs) :
      Means ('*' :: cs) (block ++ bs)
  | any {cs : List Char} {bs : List UInt8} (b : UInt8) (rest : Means cs bs) :
      Means ('?' :: cs) (b :: bs)
  | closed {cs : List Char} {n : Nat} {b : UInt8} {bs : List UInt8}
      (hclosed : classLength cs = some n) (htakes : ClassTakes (cs.take (n - 1)) b)
      (rest : Means (cs.drop n) bs) : Means ('[' :: cs) (b :: bs)
  | literal {c : Char} {cs : List Char} {bs : List UInt8} (hstar : c ≠ '*') (hany : c ≠ '?')
      (hopen : c = '[' → classLength cs = none) (rest : Means cs bs) :
      Means (c :: cs) (Text.bytes [c] ++ bs)

/-- Whether a class in the text of a segment has a range that is reversed. -/
inductive HasReversedRange : List Char → Prop where
  | here {cs : List Char} {n : Nat} (hclosed : classLength cs = some n)
      (hreversed : ClassIsReversed (cs.take (n - 1))) : HasReversedRange ('[' :: cs)
  | closed {cs : List Char} {n : Nat} (hclosed : classLength cs = some n)
      (rest : HasReversedRange (cs.drop n)) : HasReversedRange ('[' :: cs)
  | other {c : Char} {cs : List Char} (hopen : c = '[' → classLength cs = none)
      (rest : HasReversedRange cs) : HasReversedRange (c :: cs)

/-! ## Classes -/

theorem contains_iff {k : ByteClass} {b : UInt8} :
    k.contains b = true ↔ (ListsByte k.ranges b ↔ k.negated = false) := by
  have hlists : (k.ranges.any fun r => (byteRanges r.1 r.2).any fun s => s.1 ≤ b && b ≤ s.2) =
      true ↔ ListsByte k.ranges b := by
    simp only [ListsByte, List.any_eq_true, Bool.and_eq_true, decide_eq_true_eq]
  rw [ByteClass.contains, ← hlists]
  cases (k.ranges.any fun r => (byteRanges r.1 r.2).any fun s => s.1 ≤ b && b ≤ s.2) <;>
    cases k.negated <;> decide

theorem exists_readClass_iff {body : List Char} (h : AreMembers (members body)) :
    (∃ k, readClass body = .ok k) ↔ ¬ ClassIsReversed body := by
  constructor
  · rintro ⟨k, hk⟩ ⟨stretches, dash, hwritten, s, hs, hreversed⟩
    exact ((readClass_eq_ok_iff_ranges hwritten).mp hk).1 s hs hreversed
  · intro horder
    obtain ⟨stretches, dash, hwritten⟩ := exists_areWritten h.1
    refine ⟨_, (readClass_eq_ok_iff_ranges hwritten).mpr ⟨?_, rfl⟩⟩
    intro s hs hreversed
    exact horder ⟨stretches, dash, hwritten, s, hs, hreversed⟩

theorem contains_iff_classTakes {body : List Char} (h : AreMembers (members body))
    {k : ByteClass} (hk : readClass body = .ok k) {b : UInt8} :
    k.contains b = true ↔ ClassTakes body b := by
  constructor
  · intro hb
    obtain ⟨stretches, dash, hwritten⟩ := exists_areWritten h.1
    obtain ⟨-, rfl⟩ := (readClass_eq_ok_iff_ranges hwritten).mp hk
    exact ⟨stretches, dash, hwritten, contains_iff.mp hb⟩
  · rintro ⟨stretches, dash, hwritten, hlists⟩
    obtain ⟨-, rfl⟩ := (readClass_eq_ok_iff_ranges hwritten).mp hk
    exact contains_iff.mpr hlists

/-! ## Parts -/

theorem means_star_iff {cs : List Char} {bs : List UInt8} :
    Means ('*' :: cs) bs ↔ ∃ block rest, bs = block ++ rest ∧ Means cs rest := by
  constructor
  · intro h
    cases h with
    | star block rest => exact ⟨block, _, rfl, rest⟩
    | literal hstar => exact absurd rfl hstar
  · rintro ⟨block, rest, rfl, hrest⟩
    exact .star block hrest

theorem means_any_iff {cs : List Char} {bs : List UInt8} :
    Means ('?' :: cs) bs ↔ ∃ b rest, bs = b :: rest ∧ Means cs rest := by
  constructor
  · intro h
    cases h with
    | any b rest => exact ⟨b, _, rfl, rest⟩
    | literal _ hany => exact absurd rfl hany
  · rintro ⟨b, rest, rfl, hrest⟩
    exact .any b hrest

theorem take_drop_closed (body rest : List Char) :
    (body ++ ']' :: rest).take (body.length + 1 - 1) = body ∧
      (body ++ ']' :: rest).drop (body.length + 1) = rest := by
  simp

theorem means_closed_iff {body rest : List Char} (h : AreMembers (members body))
    {bs : List UInt8} :
    Means ('[' :: (body ++ ']' :: rest)) bs ↔
      ∃ b later, bs = b :: later ∧ ClassTakes body b ∧ Means rest later := by
  have hlength := classLength_append h rest
  obtain ⟨htake, hdrop⟩ := take_drop_closed body rest
  constructor
  · intro hmeans
    cases hmeans with
    | closed hclosed htakes hrest =>
      rw [hlength] at hclosed
      obtain rfl := Option.some.inj hclosed
      rw [htake] at htakes
      rw [hdrop] at hrest
      exact ⟨_, _, rfl, htakes, hrest⟩
    | literal _ _ hopen =>
      rw [hopen rfl] at hlength
      cases hlength
  · rintro ⟨b, later, rfl, htakes, hrest⟩
    exact .closed hlength (htake.symm ▸ htakes) (hdrop.symm ▸ hrest)

theorem opensClass_eq_none_iff {c : Char} {cs : List Char} :
    opensClass c cs = none ↔ (c = '[' → classLength cs = none) := by
  unfold opensClass
  split
  · next hc => exact ⟨fun h _ => h, fun h => h hc⟩
  · next hc => exact iff_of_true rfl fun heq => absurd heq hc

theorem means_literal_iff {c : Char} {cs : List Char} (hstar : c ≠ '*') (hany : c ≠ '?')
    (hopens : opensClass c cs = none) {bs : List UInt8} :
    Means (c :: cs) bs ↔ ∃ rest, bs = Text.bytes [c] ++ rest ∧ Means cs rest := by
  constructor
  · intro h
    cases h with
    | star => exact absurd rfl hstar
    | any => exact absurd rfl hany
    | closed hclosed =>
      rw [opensClass_eq_none_iff.mp hopens rfl] at hclosed
      cases hclosed
    | literal _ _ _ rest => exact ⟨_, rfl, rest⟩
  · rintro ⟨rest, rfl, hrest⟩
    exact .literal hstar hany (opensClass_eq_none_iff.mp hopens) hrest

theorem hasReversedRange_closed_iff {body rest : List Char} (h : AreMembers (members body)) :
    HasReversedRange ('[' :: (body ++ ']' :: rest)) ↔
      ClassIsReversed body ∨ HasReversedRange rest := by
  have hlength := classLength_append h rest
  obtain ⟨htake, hdrop⟩ := take_drop_closed body rest
  constructor
  · intro hreversed
    cases hreversed with
    | here hclosed hhere =>
      rw [hlength] at hclosed
      obtain rfl := Option.some.inj hclosed
      exact .inl (htake ▸ hhere)
    | closed hclosed hrest =>
      rw [hlength] at hclosed
      obtain rfl := Option.some.inj hclosed
      exact .inr (hdrop ▸ hrest)
    | other hopen =>
      rw [hopen rfl] at hlength
      cases hlength
  · rintro (hhere | hrest)
    · exact .here hlength (htake.symm ▸ hhere)
    · exact .closed hlength (hdrop.symm ▸ hrest)

theorem hasReversedRange_cons_iff {c : Char} {cs : List Char} (hopens : opensClass c cs = none) :
    HasReversedRange (c :: cs) ↔ HasReversedRange cs := by
  have hopen := opensClass_eq_none_iff.mp hopens
  constructor
  · intro h
    cases h with
    | here hclosed =>
      rw [hopen rfl] at hclosed
      cases hclosed
    | closed hclosed =>
      rw [hopen rfl] at hclosed
      cases hclosed
    | other _ rest => exact rest
  · exact .other hopen

/-! ## Segments -/

theorem exists_readParts_cons_iff {p : Part} {ps : List Part} :
    (∃ steps, readParts (p :: ps) = .ok steps) ↔
      (∃ here, p.steps = .ok here) ∧ ∃ there, readParts ps = .ok there := by
  constructor
  · rintro ⟨steps, h⟩
    obtain ⟨here, there, hp, hps, -⟩ := exists_of_readParts_cons h
    exact ⟨⟨here, hp⟩, there, hps⟩
  · rintro ⟨⟨here, hp⟩, there, hps⟩
    exact ⟨_, readParts_cons hp hps⟩

/-- The parts of a segment can be read unless a range is reversed. -/
theorem exists_readParts_iff (cs : List Char) :
    (∃ steps, readParts (parts cs) = .ok steps) ↔ ¬ HasReversedRange cs := by
  induction cs using partsInduction with
  | nil =>
    rw [parts_nil]
    exact iff_of_true ⟨[], rfl⟩ nofun
  | star cs ih =>
    rw [parts_star, exists_readParts_cons_iff, ih, hasReversedRange_cons_iff rfl]
    exact and_iff_right ⟨_, rfl⟩
  | any cs ih =>
    rw [parts_any, exists_readParts_cons_iff, ih, hasReversedRange_cons_iff rfl]
    exact and_iff_right ⟨_, rfl⟩
  | closed body rest hbody ih =>
    have hread : (∃ here, (Part.closed body).steps = .ok here) ↔ ∃ k, readClass body = .ok k := by
      simp only [Part.steps, map_eq_ok_iff]
      constructor
      · rintro ⟨_, k, hk, -⟩
        exact ⟨k, hk⟩
      · rintro ⟨k, hk⟩
        exact ⟨_, k, hk, rfl⟩
    rw [parts_closed hbody, exists_readParts_cons_iff, ih, hread, exists_readClass_iff hbody,
      hasReversedRange_closed_iff hbody, not_or]
  | literal c cs hstar hany hopens ih =>
    rw [parts_literal hstar hany hopens, exists_readParts_cons_iff, ih,
      hasReversedRange_cons_iff hopens]
    exact and_iff_right (exists_steps_literal c)

/-- What the parts of a segment are read to take is what its text means. -/
theorem cut_iff_means (cs : List Char) :
    ∀ steps, readParts (parts cs) = .ok steps →
      ∀ bs, Cut ByteTest.passes steps bs ↔ Means cs bs := by
  induction cs using partsInduction with
  | nil =>
    intro steps h bs
    rw [parts_nil] at h
    obtain rfl := Except.ok.inj h
    constructor
    · intro hcut
      cases hcut
      exact .nil
    · intro hmeans
      cases hmeans
      exact .nil
  | star cs ih =>
    intro steps h bs
    rw [parts_star] at h
    obtain ⟨here, there, hp, hps, rfl⟩ := exists_of_readParts_cons h
    obtain rfl := Except.ok.inj hp
    rw [means_star_iff, List.singleton_append, cut_run_iff]
    simp only [ih there hps]
  | any cs ih =>
    intro steps h bs
    rw [parts_any] at h
    obtain ⟨here, there, hp, hps, rfl⟩ := exists_of_readParts_cons h
    obtain rfl := Except.ok.inj hp
    rw [means_any_iff, List.singleton_append, cut_one_iff]
    simp only [ih there hps, ByteTest.passes, true_and]
  | closed body rest hbody ih =>
    intro steps h bs
    rw [parts_closed hbody] at h
    obtain ⟨here, there, hp, hps, rfl⟩ := exists_of_readParts_cons h
    obtain ⟨k, hk, rfl⟩ := map_eq_ok_iff.mp hp
    rw [means_closed_iff hbody, List.singleton_append, cut_one_iff]
    simp only [ih there hps, ByteTest.passes, contains_iff_classTakes hbody hk]
  | literal c cs hstar hany hopens ih =>
    intro steps h bs
    rw [parts_literal hstar hany hopens] at h
    obtain ⟨here, there, hp, hps, rfl⟩ := exists_of_readParts_cons h
    rw [means_literal_iff hstar hany hopens, cut_append_iff]
    simp only [ih there hps, cut_literal_iff hp]
    constructor
    · rintro ⟨_, rest, rfl, rfl, hrest⟩
      exact ⟨rest, rfl, hrest⟩
    · rintro ⟨rest, rfl, hrest⟩
      exact ⟨_, rest, rfl, rfl, hrest⟩

theorem text_of_ofSegment {segment : String} {g : Glob} (h : ofSegment segment = .ok g) :
    g.text.toList = collapseStars segment.toList := by
  unfold ofSegment at h
  dsimp only at h
  split at h
  · obtain rfl := Except.ok.inj h
    exact String.toList_ofList
  · cases h

theorem exists_ofSegment_iff (segment : String) :
    (∃ g, ofSegment segment = .ok g) ↔ ¬ HasReversedRange (collapseStars segment.toList) := by
  rw [← exists_readParts_iff]
  constructor
  · rintro ⟨g, hg⟩
    have hread := (branches_eq g).1
    rw [text_of_ofSegment hg] at hread
    exact ⟨g.steps, hread⟩
  · rintro ⟨steps, hread⟩
    obtain ⟨g, hg, -⟩ := exists_ofSegment hread
    exact ⟨g, hg⟩

/-- A wildcard segment fails to compile exactly when one of its classes has a reversed range. One
that compiles takes the bytes that its text stands for. -/
theorem compiles_and_takes_meaning (segment : String) :
    ((∃ e, ofSegment segment = .error e) ↔ HasReversedRange (collapseStars segment.toList)) ∧
      ∀ g, ofSegment segment = .ok g →
        (∀ bytes, g.acceptsBytes bytes = true ↔ Means (collapseStars segment.toList) bytes) ∧
        ∀ path : String, g.accepts path = true ↔
          Means (collapseStars segment.toList) (Text.bytes path.toList) := by
  constructor
  · rw [exists_error_iff, exists_ofSegment_iff, not_not]
  · intro g hg
    have hread := (branches_eq g).1
    rw [text_of_ofSegment hg] at hread
    have hmeans (bytes : List UInt8) :
        g.acceptsBytes bytes = true ↔ Means (collapseStars segment.toList) bytes := by
      rw [acceptsBytes_iff_cut, cut_iff_means _ _ hread]
    refine ⟨hmeans, fun path => ?_⟩
    rw [accepts_eq_acceptsBytes, hmeans]

/-- A negated class with `]` and an extended range, braces, collapsed stars and an open `[`. -/
theorem compiles_and_takes_meaning_class :
    (∃ g, ofSegment "[!]a-c-e]\x7b**,[x" = .ok g ∧ g.accepts "f\x7bé,[x" = true ∧
      Means (collapseStars "[!]a-c-e]\x7b**,[x".toList) (Text.bytes "f\x7bé,[x".toList)) ∧
    HasReversedRange (collapseStars "*.[c-a-z]".toList) := by
  have hruns : (ofSegment "[!]a-c-e]\x7b**,[x").toOption.any (·.accepts "f\x7bé,[x") = true := by
    decide +kernel
  obtain ⟨g, hg, haccepts⟩ := exists_ok_of_any hruns
  have hmeans := ((compiles_and_takes_meaning "[!]a-c-e]\x7b**,[x").2 g hg).2 "f\x7bé,[x"
  have hfails : ∃ e, ofSegment "*.[c-a-z]" = .error e := by
    rw [exists_error_iff]
    rintro ⟨g, hg⟩
    have hnone : (ofSegment "*.[c-a-z]").toOption.isNone = true := by decide +kernel
    rw [hg] at hnone
    cases hnone
  exact ⟨⟨g, hg, haccepts, hmeans.mp haccepts⟩,
    (compiles_and_takes_meaning "*.[c-a-z]").1.mp hfails⟩

end Ownership.Glob
