import Ownership.Proofs.Pattern.Compare

set_option autoImplicit false

/-!
# What a pattern says about a path

Each segment of a pattern uses up a block of consecutive path segments: a literal one equal segment,
a wildcard one segment that its glob accepts, `**` any number of them. A pattern accepts a path
exactly when such blocks, in the order of the pattern, make up the whole path.
-/
namespace Ownership
open Ownership.Wild

/-- Whether a block of path segments is what one pattern segment stands for. -/
def Segment.Takes : Segment → List String → Prop
  | .literal text, block => block = [text]
  | .wildcard glob, block => ∃ part, block = [part] ∧ glob.accepts part = true
  | .anyDepth, _ => True

theorem Segment.takes_iff_of_ne {s : Segment} (hs : s ≠ .anyDepth) {block : List String} :
    s.Takes block ↔ ∃ part, block = [part] ∧ s.accepts part = true := by
  cases s with
  | literal text =>
    constructor
    · rintro rfl
      exact ⟨text, rfl, by simp [Segment.accepts]⟩
    · rintro ⟨part, rfl, hpart⟩
      have htext : text = part := by simpa [Segment.accepts] using hpart
      rw [htext]
      rfl
  | wildcard glob => exact Iff.rfl
  | anyDepth => exact absurd rfl hs

namespace Pattern

theorem cut_of_blocks {segments : List Segment} {blocks : List (List String)}
    (h : List.Forall₂ Segment.Takes segments blocks) :
    Cut Segment.accepts (segments.map Segment.step) blocks.flatten := by
  induction h with
  | nil => exact .nil
  | @cons s block segments blocks htakes _ ih =>
    rw [List.map_cons, List.flatten_cons]
    by_cases hs : s = .anyDepth
    · subst hs
      exact .run block ih
    · obtain ⟨part, rfl, hpart⟩ := (Segment.takes_iff_of_ne hs).mp htakes
      rw [Segment.step_of_ne hs]
      exact .one hpart ih

theorem exists_blocks_of_cut {segments : List Segment} {parts : List String}
    (h : Cut Segment.accepts (segments.map Segment.step) parts) :
    ∃ blocks, blocks.flatten = parts ∧ List.Forall₂ Segment.Takes segments blocks := by
  induction segments generalizing parts with
  | nil =>
    cases h with
    | nil => exact ⟨[], rfl, .nil⟩
  | cons s segments ih =>
    rw [List.map_cons] at h
    by_cases hs : s = .anyDepth
    · subst hs
      cases h with
      | run block rest =>
        obtain ⟨blocks, rfl, hblocks⟩ := ih rest
        exact ⟨block :: blocks, rfl, .cons trivial hblocks⟩
    · rw [Segment.step_of_ne hs] at h
      cases h with
      | @one _ part _ _ hpart rest =>
        obtain ⟨blocks, rfl, hblocks⟩ := ih rest
        have htakes : s.Takes [part] := (Segment.takes_iff_of_ne hs).mpr ⟨part, rfl, hpart⟩
        exact ⟨[part] :: blocks, rfl, .cons htakes hblocks⟩

/-- The matcher decides whether the path falls into blocks for the pattern's segments. -/
theorem accepts_iff_exists_blocks (p : Pattern) (path : String) :
    p.accepts path = true ↔
      ∃ blocks, blocks.flatten = pathSegments path ∧
        List.Forall₂ Segment.Takes p.segments blocks := by
  rw [accepts, acceptsSegments_iff_cut]
  constructor
  · intro h
    exact exists_blocks_of_cut h
  · rintro ⟨blocks, hparts, hblocks⟩
    rw [← hparts]
    exact cut_of_blocks hblocks

end Pattern

end Ownership
