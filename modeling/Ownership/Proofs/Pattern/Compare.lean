import Ownership.Pattern.Basic
import Ownership.Proofs.Glob.Affix
import Ownership.Proofs.Wild.Forward
import Ownership.Proofs.Wild.Meet

set_option autoImplicit false

/-!
# Comparing patterns

The answer of `covers` is a cut of one pattern's segments along the other pattern's steps, and the
answer of `intersects` an alignment of their steps. Both agree with the paths: a pattern that covers
another one accepts what it accepts, and patterns that accept a common path intersect.
-/
namespace Ownership
open Ownership.Wild

namespace Segment

theorem step_of_ne {s : Segment} (h : s ≠ .anyDepth) : s.step = .one s := by
  cases s with
  | literal text => rfl
  | wildcard glob => rfl
  | anyDepth => exact absurd rfl h

/-- One wildcard is seen to cover another when both are the same, or when all that it asks for is a
literal end, or a literal start, that the other one has. -/
theorem covers_wildcard_iff {a b : Glob} :
    (wildcard a).covers (wildcard b) = true ↔ a = b ∨
      (∃ ending, a.starThenLiteral? = some ending ∧ ending <:+ b.literalEnd) ∨
      ∃ start, a.literalThenStar? = some start ∧ start <+: b.literalStart := by
  simp only [covers]
  split
  · next hsame =>
    refine iff_of_true rfl ?_
    rw [Bool.or_eq_true, decide_eq_true_eq, decide_eq_true_eq] at hsame
    rcases hsame with hstar | rfl
    · refine .inr (.inl ⟨[], ?_, List.nil_suffix⟩)
      rw [Glob.starThenLiteral?, hstar]
      rfl
    · exact .inl rfl
  · next hdiffer =>
    have hne : a ≠ b := by
      rintro rfl
      exact hdiffer (by simp)
    split
    · next ending hending =>
      rw [List.isSuffixOf_iff_suffix]
      constructor
      · intro h
        exact .inr (.inl ⟨ending, hending, h⟩)
      · rintro (h | ⟨ending', hending', hsuffix⟩ | ⟨start, hstart, -⟩)
        · exact absurd h hne
        · cases hending.symm.trans hending'
          exact hsuffix
        · rw [Glob.eq_nil_of_both_shapes hending hstart]
          exact List.nil_suffix
    · next hnone =>
      constructor
      · intro h
        split at h
        · next start hstart => exact .inr (.inr ⟨start, hstart, List.isPrefixOf_iff_prefix.mp h⟩)
        · cases h
      · rintro (h | ⟨ending, hending, -⟩ | ⟨start, hstart, hprefix⟩)
        · exact absurd h hne
        · cases hnone.symm.trans hending
        · simp only [hstart]
          exact List.isPrefixOf_iff_prefix.mpr hprefix

theorem exists_step_of_covers {a b : Segment} (h : a.covers b = true) :
    ∃ u, b.step = .one u ∧ ∀ part, u.accepts part = true → a.accepts part = true := by
  cases b with
  | anyDepth => cases a <;> simp [covers] at h
  | literal text =>
    refine ⟨.literal text, rfl, ?_⟩
    intro part hpart
    obtain rfl : text = part := by simpa [accepts] using hpart
    cases a with
    | literal other => exact h
    | wildcard glob => exact h
    | anyDepth => rfl
  | wildcard inner =>
    refine ⟨.wildcard inner, rfl, ?_⟩
    intro part hpart
    cases a with
    | literal text => simp [covers] at h
    | anyDepth => rfl
    | wildcard outer =>
      change inner.accepts part = true at hpart
      change outer.accepts part = true
      rcases covers_wildcard_iff.mp h with rfl | ⟨ending, hending, hsuffix⟩ |
        ⟨start, hstart, hprefix⟩
      · exact hpart
      · exact Glob.accepts_of_isSuffix hending
          ((Text.bytes_isSuffix_iff.mpr hsuffix).trans (Glob.literalEnd_isSuffix inner hpart))
      · exact Glob.accepts_of_isPrefix hstart
          ((Text.bytes_isPrefix_iff.mpr hprefix).trans (Glob.literalStart_isPrefix inner hpart))

theorem startsAgree_of_bytes {as bs : List Char} {xs : List UInt8} (ha : Text.bytes as <+: xs)
    (hb : Text.bytes bs <+: xs) : startsAgree as bs = true := by
  rw [startsAgree, Bool.or_eq_true, List.isPrefixOf_iff_prefix, List.isPrefixOf_iff_prefix]
  exact (Text.prefix_or_prefix_of_bytes ha hb).symm

theorem endsAgree_of_bytes {as bs : List Char} {xs : List UInt8} (ha : Text.bytes as <:+ xs)
    (hb : Text.bytes bs <:+ xs) : endsAgree as bs = true := by
  rw [endsAgree, Bool.or_eq_true, List.isSuffixOf_iff_suffix, List.isSuffixOf_iff_suffix]
  exact (Text.suffix_or_suffix_of_bytes ha hb).symm

theorem intersects_of_part (a b : Segment) (part : String) (ha : a.accepts part = true)
    (hb : b.accepts part = true) : a.intersects b = true := by
  cases a with
  | anyDepth => cases b <;> rfl
  | literal text =>
    obtain rfl : text = part := by simpa [accepts] using ha
    cases b with
    | anyDepth => rfl
    | literal other =>
      obtain rfl : other = text := by simpa [accepts] using hb
      simp [intersects]
    | wildcard glob => exact hb
  | wildcard glob =>
    cases b with
    | anyDepth => rfl
    | literal text =>
      obtain rfl : text = part := by simpa [accepts] using hb
      exact ha
    | wildcard other =>
      rw [intersects, Bool.and_eq_true]
      exact ⟨startsAgree_of_bytes (Glob.literalStart_isPrefix glob ha)
          (Glob.literalStart_isPrefix other hb),
        endsAgree_of_bytes (Glob.literalEnd_isSuffix glob ha) (Glob.literalEnd_isSuffix other hb)⟩

end Segment

namespace Pattern

/-- Covering is accepting, with the covered pattern's segments in the place of a path's. -/
theorem coverRow_eq_reach (segments other : List Segment) :
    coverRow segments other = reach Segment.covers (segments.map Segment.step) other := by
  induction segments with
  | nil => rfl
  | cons s rest ih =>
    cases s with
    | literal text => exact congrArg (oneRow _ other) ih
    | wildcard glob => exact congrArg (oneRow _ other) ih
    | anyDepth => exact congrArg runRow ih

theorem covers_iff_cut {p q : Pattern} :
    p.covers q = true ↔ Cut Segment.covers p.steps q.segments := by
  rw [covers, coverRow_eq_reach]
  exact accepts_iff_cut

theorem acceptsSegments_eq (p : Pattern) (parts : List String) :
    p.acceptsSegments parts = Wild.accepts Segment.accepts p.steps parts :=
  scan_eq_accepts Segment.accepts p.steps parts

theorem acceptsSegments_iff_cut {p : Pattern} {parts : List String} :
    p.acceptsSegments parts = true ↔ Cut Segment.accepts p.steps parts := by
  rw [acceptsSegments_eq]
  exact accepts_iff_cut

theorem acceptsSegments_of_covers {p q : Pattern} (hc : p.covers q = true) {parts : List String}
    (h : q.acceptsSegments parts = true) : p.acceptsSegments parts = true := by
  rw [acceptsSegments_iff_cut] at h ⊢
  refine Cut.comp ?_ (covers_iff_cut.mp hc) h
  intro a b hab
  exact Segment.exists_step_of_covers hab

theorem exists_intersectRow_nil (segments : List Segment) :
    ∃ b, intersectRow segments [] = [b] := by
  induction segments with
  | nil => exact ⟨true, rfl⟩
  | cons s rest ih =>
    obtain ⟨b, hb⟩ := ih
    cases s with
    | literal text => exact ⟨false, rfl⟩
    | wildcard glob => exact ⟨false, rfl⟩
    | anyDepth => exact ⟨b || false, by simp only [intersectRow, hb, runRow, List.headD_nil]⟩

theorem exists_intersectRow_cons (segments : List Segment) (t : Segment) (ts : List Segment) :
    ∃ b, intersectRow segments (t :: ts) = b :: intersectRow segments ts := by
  induction segments with
  | nil => exact ⟨_, rfl⟩
  | cons s rest ih =>
    obtain ⟨b, hb⟩ := ih
    cases s with
    | literal text => exact ⟨_, by simp only [intersectRow, hb, meetRow]; rfl⟩
    | wildcard glob => exact ⟨_, by simp only [intersectRow, hb, meetRow]; rfl⟩
    | anyDepth => exact ⟨_, by simp only [intersectRow, hb, runRow]; rfl⟩

def mayMeet (segments other : List Segment) : Bool :=
  (intersectRow segments other).headD false

theorem intersectRow_one {s : Segment} (hs : s ≠ .anyDepth) (rest other : List Segment) :
    intersectRow (s :: rest) other = meetRow s other (intersectRow rest other) := by
  cases s with
  | literal text => rfl
  | wildcard glob => rfl
  | anyDepth => exact absurd rfl hs

theorem mayMeet_nil_cons (t : Segment) (ts : List Segment) :
    mayMeet [] (t :: ts) = (t == .anyDepth && mayMeet [] ts) := rfl

theorem mayMeet_depth_nil (rest : List Segment) :
    mayMeet (.anyDepth :: rest) [] = mayMeet rest [] := by
  obtain ⟨b, hb⟩ := exists_intersectRow_nil rest
  simp [mayMeet, intersectRow, hb, runRow]

theorem mayMeet_depth_cons (rest : List Segment) (t : Segment) (ts : List Segment) :
    mayMeet (.anyDepth :: rest) (t :: ts) =
      (mayMeet rest (t :: ts) || mayMeet (.anyDepth :: rest) ts) := by
  obtain ⟨b, hb⟩ := exists_intersectRow_cons rest t ts
  simp only [mayMeet, intersectRow, hb, runRow, List.headD_cons]

theorem mayMeet_one_nil {s : Segment} (hs : s ≠ .anyDepth) (rest : List Segment) :
    mayMeet (s :: rest) [] = false := by
  rw [mayMeet, intersectRow_one hs]
  rfl

theorem mayMeet_one_cons {s : Segment} (hs : s ≠ .anyDepth) (rest : List Segment) (t : Segment)
    (ts : List Segment) :
    mayMeet (s :: rest) (t :: ts) =
      if t = .anyDepth then mayMeet (s :: rest) ts || mayMeet rest (t :: ts)
      else s.intersects t && mayMeet rest ts := by
  obtain ⟨b, hb⟩ := exists_intersectRow_cons rest t ts
  simp only [mayMeet, intersectRow_one hs, hb, meetRow, List.headD_cons]

theorem mayMeet_iff_meets (segments other : List Segment) :
    mayMeet segments other = true ↔
      Meets Segment.intersects (segments.map Segment.step) (other.map Segment.step) := by
  induction segments generalizing other with
  | nil =>
    induction other with
    | nil => simp [mayMeet, intersectRow, depthRow]
    | cons t ts ih => cases t <;> simp [mayMeet_nil_cons, Segment.step, ih]
  | cons s rest ih =>
    by_cases hs : s = .anyDepth
    · subst hs
      induction other with
      | nil => simpa [mayMeet_depth_nil, Segment.step] using ih []
      | cons t ts longer =>
        rw [mayMeet_depth_cons, Bool.or_eq_true, ih, longer]
        exact (meets_run_cons _ _ _).symm
    · have hstep : s.step = .one s := Segment.step_of_ne hs
      induction other with
      | nil => simp [mayMeet_one_nil hs, hstep]
      | cons t ts longer =>
        rw [mayMeet_one_cons hs]
        by_cases ht : t = .anyDepth
        · subst ht
          rw [if_pos rfl, Bool.or_eq_true, List.map_cons, List.map_cons, hstep]
          rw [List.map_cons, hstep] at longer
          exact (or_congr longer (ih _)).trans (meets_one_run _ _ _).symm
        · rw [if_neg ht, Bool.and_eq_true, ih, List.map_cons, List.map_cons, hstep,
            Segment.step_of_ne ht]
          exact (meets_one_one _ _ _ _).symm

theorem intersects_iff_meets {p q : Pattern} :
    p.intersects q = true ↔ Meets Segment.intersects p.steps q.steps :=
  mayMeet_iff_meets p.segments q.segments

theorem intersects_of_acceptsSegments {p q : Pattern} {parts : List String}
    (hp : p.acceptsSegments parts = true) (hq : q.acceptsSegments parts = true) :
    p.intersects q = true := by
  rw [acceptsSegments_eq] at hp hq
  exact intersects_iff_meets.mpr
    (meets_of_accepts Segment.intersects_of_part p.steps q.steps parts hp hq)

theorem exists_compiled (first second : String) (r : Pattern → Pattern → Bool)
    (h : (do
      let p ← compile first
      let q ← compile second
      return r p q) = Except.ok true) :
    ∃ p q, compile first = .ok p ∧ compile second = .ok q ∧ r p q = true := by
  cases hp : compile first with
  | error e => simp [hp, bind, Except.bind] at h
  | ok p =>
    cases hq : compile second with
    | error e => simp [hp, hq, bind, Except.bind] at h
    | ok q =>
      refine ⟨p, q, rfl, rfl, ?_⟩
      simpa [hp, hq, bind, Except.bind, pure, Except.pure] using h

/-- `covers` is never wrong when it says yes. -/
theorem accepts_of_covers {p q : Pattern} (hc : p.covers q = true) {path : String}
    (h : q.accepts path = true) : p.accepts path = true :=
  acceptsSegments_of_covers hc h

theorem accepts_of_covers_markdown : ∃ p q : Pattern,
    compile "**/*.md" = .ok p ∧ compile "docs/[A-Z]?*{me}.md" = .ok q ∧ p.covers q = true ∧
      q.accepts "docs/Read{me}.md" = true ∧ p.accepts "docs/Read{me}.md" = true := by
  obtain ⟨p, q, hp, hq, h⟩ := exists_compiled "**/*.md" "docs/[A-Z]?*{me}.md"
    (fun p q => p.covers q && q.accepts "docs/Read{me}.md") (by decide +kernel)
  rw [Bool.and_eq_true] at h
  exact ⟨p, q, hp, hq, h.1, h.2, accepts_of_covers h.1 h.2⟩

/-- `intersects` is never wrong when it says no. -/
theorem intersects_of_common_path {p q : Pattern}
    (h : ∃ path, p.accepts path = true ∧ q.accepts path = true) : p.intersects q = true := by
  obtain ⟨path, hp, hq⟩ := h
  exact intersects_of_acceptsSegments hp hq

theorem intersects_of_common_path_draft : ∃ p q : Pattern,
    compile "**/é[!x]*/**" = .ok p ∧ compile "docs/**/*[draft" = .ok q ∧
      p.accepts "docs/éé/[draft" = true ∧ q.accepts "docs/éé/[draft" = true ∧
      p.intersects q = true := by
  obtain ⟨p, q, hp, hq, h⟩ := exists_compiled "**/é[!x]*/**" "docs/**/*[draft"
    (fun p q => p.accepts "docs/éé/[draft" && q.accepts "docs/éé/[draft") (by decide +kernel)
  rw [Bool.and_eq_true] at h
  exact ⟨p, q, hp, hq, h.1, h.2, intersects_of_common_path ⟨_, h⟩⟩

end Pattern

end Ownership
