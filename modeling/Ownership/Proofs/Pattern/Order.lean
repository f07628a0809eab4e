import Ownership.Proofs.Except
import Ownership.Proofs.Pattern.Compare

set_option autoImplicit false

/-!
# The order of patterns

`covers` orders patterns: every pattern covers itself, and what covers a covering pattern covers the
covered one as well. A pattern intersects what it covers, and `intersects` does not ask which
pattern comes first. Both are tests on the texts of wildcards, so none of this comes from the
paths that the patterns accept.
-/
namespace Ownership
open Ownership.Wild

namespace Segment

/-! ## One segment -/

theorem ne_anyDepth_of_covers {s t : Segment} (h : s.covers t = true) : t ≠ .anyDepth := by
  rintro rfl
  cases s <;> simp [covers] at h

theorem covers_self {s : Segment} (hs : s ≠ .anyDepth) : s.covers s = true := by
  cases s with
  | literal text => exact beq_self_eq_true text
  | wildcard glob => exact covers_wildcard_iff.mpr (.inl rfl)
  | anyDepth => exact absurd rfl hs

/-- A star with a literal end has no literal start, and the other way round, so between different
shapes only the empty literal is passed on. -/
theorem covers_wildcard_trans {a b c : Glob} (hab : (wildcard a).covers (.wildcard b) = true)
    (hbc : (wildcard b).covers (.wildcard c) = true) :
    (wildcard a).covers (.wildcard c) = true := by
  rcases covers_wildcard_iff.mp hbc with rfl | ⟨ending, hending, hsuffix⟩ | ⟨start, hstart, hprefix⟩
  · exact hab
  · obtain ⟨hnoStart, hend⟩ := Glob.literalEnds_of_starThenLiteral? hending
    rw [covers_wildcard_iff, hnoStart, hend] at hab
    rcases hab with rfl | ⟨outer, houter, hle⟩ | ⟨outer, houter, hle⟩
    · exact hbc
    · exact covers_wildcard_iff.mpr (.inr (.inl ⟨outer, houter, hle.trans hsuffix⟩))
    · obtain rfl := List.prefix_nil.mp hle
      exact covers_wildcard_iff.mpr (.inr (.inr ⟨[], houter, List.nil_prefix⟩))
  · obtain ⟨hstart', hnoEnd⟩ := Glob.literalEnds_of_literalThenStar? hstart
    rw [covers_wildcard_iff, hstart', hnoEnd] at hab
    rcases hab with rfl | ⟨outer, houter, hle⟩ | ⟨outer, houter, hle⟩
    · exact hbc
    · obtain rfl := List.suffix_nil.mp hle
      exact covers_wildcard_iff.mpr (.inr (.inl ⟨[], houter, List.nil_suffix⟩))
    · exact covers_wildcard_iff.mpr (.inr (.inr ⟨outer, houter, hle.trans hprefix⟩))

theorem covers_trans {r s t : Segment} (hrs : r.covers s = true) (hst : s.covers t = true) :
    r.covers t = true := by
  cases t with
  | anyDepth => exact absurd rfl (ne_anyDepth_of_covers hst)
  | literal text =>
    cases s with
    | anyDepth => exact absurd rfl (ne_anyDepth_of_covers hrs)
    | literal other =>
      obtain rfl : other = text := eq_of_beq hst
      exact hrs
    | wildcard inner =>
      cases r with
      | literal other => cases hrs
      | anyDepth => cases hrs
      | wildcard outer =>
        obtain ⟨u, hu, haccepts⟩ := exists_step_of_covers hrs
        cases hu
        exact haccepts text hst
  | wildcard glob =>
    cases s with
    | anyDepth => exact absurd rfl (ne_anyDepth_of_covers hrs)
    | literal text => cases hst
    | wildcard inner =>
      cases r with
      | literal text => cases hrs
      | anyDepth => cases hrs
      | wildcard outer => exact covers_wildcard_trans hrs hst

theorem startsAgree_of_isPrefix {a b : List Char} (h : a <+: b) : startsAgree a b = true := by
  rw [startsAgree, List.isPrefixOf_iff_prefix.mpr h, Bool.or_true]

theorem endsAgree_of_isSuffix {a b : List Char} (h : a <:+ b) : endsAgree a b = true := by
  rw [endsAgree, List.isSuffixOf_iff_suffix.mpr h, Bool.or_true]

theorem intersects_of_covers {s t : Segment} (h : s.covers t = true) : s.intersects t = true := by
  cases t with
  | anyDepth => exact absurd rfl (ne_anyDepth_of_covers h)
  | literal text => cases s with
    | literal other => exact h
    | wildcard glob => exact h
    | anyDepth => cases h
  | wildcard inner => cases s with
    | literal text => cases h
    | anyDepth => cases h
    | wildcard outer =>
      rw [intersects, Bool.and_eq_true]
      rcases covers_wildcard_iff.mp h with rfl | ⟨ending, hending, hsuffix⟩ |
        ⟨start, hstart, hprefix⟩
      · exact ⟨startsAgree_of_isPrefix List.prefix_rfl, endsAgree_of_isSuffix List.suffix_rfl⟩
      · obtain ⟨hnoStart, hend⟩ := Glob.literalEnds_of_starThenLiteral? hending
        rw [hnoStart, hend]
        exact ⟨startsAgree_of_isPrefix List.nil_prefix, endsAgree_of_isSuffix hsuffix⟩
      · obtain ⟨hstart', hnoEnd⟩ := Glob.literalEnds_of_literalThenStar? hstart
        rw [hstart', hnoEnd]
        exact ⟨startsAgree_of_isPrefix hprefix, endsAgree_of_isSuffix List.nil_suffix⟩

theorem intersects_comm (s t : Segment) : s.intersects t = t.intersects s := by
  cases s with
  | anyDepth => cases t <;> rfl
  | literal text => cases t with
    | literal other => exact Bool.beq_comm
    | wildcard glob => rfl
    | anyDepth => rfl
  | wildcard glob => cases t with
    | literal text => rfl
    | anyDepth => rfl
    | wildcard other =>
      exact congrArg₂ (· && ·) (Bool.or_comm _ _) (Bool.or_comm _ _)

end Segment

namespace Pattern

/-! ## Whole patterns -/

theorem cut_covers_self (segments : List Segment) :
    Cut Segment.covers (segments.map Segment.step) segments := by
  induction segments with
  | nil => exact .nil
  | cons s rest ih =>
    rw [List.map_cons]
    by_cases hs : s = .anyDepth
    · subst hs
      exact .run [.anyDepth] ih
    · rw [Segment.step_of_ne hs]
      exact .one (Segment.covers_self hs) ih

theorem covers_refl (p : Pattern) : p.covers p = true :=
  covers_iff_cut.mpr (cut_covers_self p.segments)

/-- The cuts are composed: what the middle pattern's segments are cut into is cut again. -/
theorem covers_trans {p q r : Pattern} (hpq : p.covers q = true) (hqr : q.covers r = true) :
    p.covers r = true := by
  refine covers_iff_cut.mpr ((covers_iff_cut.mp hpq).comp ?_ (covers_iff_cut.mp hqr))
  intro s t hst
  exact ⟨t, Segment.step_of_ne (Segment.ne_anyDepth_of_covers hst),
    fun u htu => Segment.covers_trans hst htu⟩

theorem intersects_of_covers {p q : Pattern} (h : p.covers q = true) : p.intersects q = true := by
  refine intersects_iff_meets.mpr (Meets.of_cut ?_ (covers_iff_cut.mp h))
  intro s t hst
  exact ⟨t, Segment.step_of_ne (Segment.ne_anyDepth_of_covers hst),
    Segment.intersects_of_covers hst⟩

theorem intersects_symm {p q : Pattern} (h : p.intersects q = true) : q.intersects p = true := by
  have hswap : (fun t s => Segment.intersects s t) = Segment.intersects := by
    funext t s
    exact Segment.intersects_comm s t
  have haligned := (intersects_iff_meets.mp h).symm
  rw [hswap] at haligned
  exact intersects_iff_meets.mpr haligned

/-- `covers` is a preorder within `intersects`, which is symmetric. -/
theorem covers_preorder_within_intersects (p q r : Pattern) :
    p.covers p = true ∧ (p.covers q = true → q.covers r = true → p.covers r = true) ∧
      (p.covers q = true → p.intersects q = true) ∧ p.intersects q = q.intersects p := by
  refine ⟨covers_refl p, covers_trans, intersects_of_covers, ?_⟩
  rw [Bool.eq_iff_iff]
  exact ⟨intersects_symm, intersects_symm⟩

theorem covers_preorder_within_intersects_markdown : ∃ p q r : Pattern,
    compile "**/*.md" = .ok p ∧ compile "docs/**/*a.md" = .ok q ∧
      compile "docs/x/[ab]?*a.md" = .ok r ∧ p.covers q = true ∧ q.covers r = true ∧
      p.covers r = true ∧ p.intersects q = true ∧ p.intersects q = q.intersects p := by
  obtain ⟨p, q, hp, hq, h⟩ := exists_compiled "**/*.md" "docs/**/*a.md"
    (fun p q => (compile "docs/x/[ab]?*a.md").toOption.any fun r => p.covers q && q.covers r)
    (by decide +kernel)
  obtain ⟨r, hr, hcovers⟩ := exists_ok_of_any h
  rw [Bool.and_eq_true] at hcovers
  obtain ⟨-, htrans, hwithin, hcomm⟩ := covers_preorder_within_intersects p q r
  exact ⟨p, q, r, hp, hq, hr, hcovers.1, hcovers.2, htrans hcovers.1 hcovers.2,
    hwithin hcovers.1, hcomm⟩

end Pattern

end Ownership
