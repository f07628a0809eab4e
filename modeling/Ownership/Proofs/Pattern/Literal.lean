import Mathlib.Data.Set.Finite.List
import Mathlib.Data.Set.Finite.Range
import Ownership.Proofs.Pattern.Compare
import Ownership.Proofs.Pattern.Spelling

set_option autoImplicit false

/-!
# Patterns without wildcards

Where a pattern has only literals and `**`, comparing patterns is comparing the sets of paths that
they accept: `covers` says exactly whether one set is within the other, and `intersects` whether
they have a path in common. For the first, a path is read off the covered pattern, with a name that
the covering one does not have in the place of each `**`; for the second, off the alignment.
-/
namespace Ownership
open Location (IsSegment)
open Wild

namespace Segment

def isWildcard : Segment → Bool
  | .wildcard _ => true
  | _ => false

def IsName (s : Segment) : Prop :=
  ∃ text, s = .literal text ∧ IsSegment text

/-- A path segment for a segment without wildcards: its own text, or for `**` the name `fresh`. -/
def sample (fresh : String) : Segment → String
  | .literal text => text
  | _ => fresh

theorem eq_literal_of_classify {raw name text : String}
    (h : Pattern.classify raw name = .ok (.literal text)) : name = text := by
  unfold Pattern.classify at h
  split at h
  · cases h
  · split at h
    · split at h
      · cases h
      · cases h
    · cases h
      rfl

theorem isSegment_replicate (n : Nat) :
    IsSegment (String.ofList ('x' :: List.replicate n 'x')) := by
  have hne (cs : List Char) (h : cs.head? ≠ some 'x') :
      String.ofList ('x' :: List.replicate n 'x') ≠ String.ofList cs := by
    intro heq
    exact h (String.ofList_injective heq ▸ rfl)
  refine ⟨hne [] (by decide), hne ['.'] (by decide), ?_⟩
  rw [String.toList_ofList]
  intro hslash
  exact absurd (List.eq_of_mem_replicate (n := n + 1) hslash) (by decide)

/-- There are more names than literals in a list. -/
theorem exists_fresh (segments : List Segment) :
    ∃ name, IsSegment name ∧ Segment.literal name ∉ segments := by
  have hinjective : Function.Injective fun n : Nat =>
      Segment.literal (String.ofList ('x' :: List.replicate n 'x')) := by
    intro m n hmn
    have hlist := String.ofList_injective (Segment.literal.inj hmn)
    exact List.replicate_left_injective 'x' (List.cons.inj hlist).2
  obtain ⟨_, ⟨n, rfl⟩, hnew⟩ :=
    (Set.infinite_range_of_injective hinjective).exists_notMem_finite (List.finite_toSet segments)
  exact ⟨_, isSegment_replicate n, hnew⟩

end Segment

namespace Pattern

def WildcardFree (p : Pattern) : Prop :=
  ∀ s ∈ p.segments, s.isWildcard = false

instance (p : Pattern) : Decidable p.WildcardFree :=
  inferInstanceAs (Decidable (∀ s ∈ p.segments, s.isWildcard = false))

theorem isSegment_of_literal_mem {raw : String} {p : Pattern} (h : compile raw = .ok p)
    {text : String} (hmem : .literal text ∈ p.segments) : IsSegment text := by
  obtain ⟨-, -, segments, hread, rfl⟩ := compile_eq_ok_iff.mp h
  rcases mem_assemble hmem with hmem | hdepth
  · obtain ⟨name, hname, hliteral⟩ := exists_of_mem_mapM hread hmem
    rw [← Segment.eq_literal_of_classify hliteral]
    exact Location.isSegment_of_mem_pathSegments hname
  · cases hdepth

theorem exists_literal_of_mem_steps {p : Pattern} (hfree : p.WildcardFree) {s : Segment}
    (h : .one s ∈ p.steps) : ∃ text, s = .literal text ∧ .literal text ∈ p.segments := by
  obtain ⟨s', hs', hstep⟩ := List.mem_map.mp h
  cases s' with
  | literal text =>
    cases hstep
    exact ⟨text, rfl, hs'⟩
  | wildcard glob => cases hfree _ hs'
  | anyDepth => cases hstep

theorem isName_of_mem_steps {raw : String} {p : Pattern} (hp : compile raw = .ok p)
    (hfree : p.WildcardFree) (s : Segment) (h : .one s ∈ p.steps) : s.IsName := by
  obtain ⟨text, rfl, hmem⟩ := exists_literal_of_mem_steps hfree h
  exact ⟨text, rfl, isSegment_of_literal_mem hp hmem⟩

/-! ## The path of a pattern -/

theorem cut_sample {segments : List Segment} (hfree : ∀ s ∈ segments, s.isWildcard = false)
    (fresh : String) :
    Cut Segment.accepts (segments.map Segment.step) (segments.map (Segment.sample fresh)) := by
  induction segments with
  | nil => exact .nil
  | cons s segments ih =>
    obtain ⟨hs, hrest⟩ := List.forall_mem_cons.mp hfree
    cases s with
    | literal text => exact .one (beq_self_eq_true text) (ih hrest)
    | wildcard glob => cases hs
    | anyDepth => exact .run [fresh] (ih hrest)

theorem exists_sample_path {raw : String} {p : Pattern} (hp : compile raw = .ok p)
    (hfree : p.WildcardFree) {fresh : String} (hfresh : IsSegment fresh) :
    ∃ path, pathSegments path = p.segments.map (Segment.sample fresh) := by
  refine Location.exists_pathSegments_eq ?_
  intro name hname
  obtain ⟨s, hs, rfl⟩ := List.mem_map.mp hname
  cases s with
  | literal text => exact isSegment_of_literal_mem hp hs
  | wildcard glob => cases hfree _ hs
  | anyDepth => exact hfresh

/-- On patterns without wildcards, `covers` decides whether one accepts all that the other does. -/
theorem covers_iff_forall_path {raw : String} {p q : Pattern} (hq : compile raw = .ok q)
    (hfp : p.WildcardFree) (hfq : q.WildcardFree) :
    p.covers q = true ↔ ∀ path, q.accepts path = true → p.accepts path = true := by
  constructor
  · intro hcovers path h
    exact acceptsSegments_of_covers hcovers h
  · intro hall
    obtain ⟨fresh, hfresh, hnew⟩ := Segment.exists_fresh p.segments
    obtain ⟨path, hpath⟩ := exists_sample_path hq hfq hfresh
    have htaken : q.accepts path = true := by
      rw [accepts, hpath]
      exact acceptsSegments_iff_cut.mpr (cut_sample hfq fresh)
    have hcut : Cut Segment.accepts p.steps (q.segments.map (Segment.sample fresh)) := by
      rw [← hpath]
      exact acceptsSegments_iff_cut.mp (hall path htaken)
    refine covers_iff_cut.mpr (hcut.of_map ?_)
    intro s t hs ht hpass
    obtain ⟨text, rfl, hmem⟩ := exists_literal_of_mem_steps hfp hs
    have hsame : text = t.sample fresh := beq_iff_eq.mp hpass
    cases t with
    | literal other => exact beq_iff_eq.mpr hsame
    | wildcard glob => cases hfq _ ht
    | anyDepth =>
      rw [hsame] at hmem
      exact absurd hmem hnew

theorem covers_iff_forall_path_gap : ∃ p q : Pattern,
    compile "**/b/a/" = .ok p ∧ compile ".\\b/**/c/b//**/a" = .ok q ∧ p.WildcardFree ∧
      q.WildcardFree ∧ p.covers q = false ∧
      ∃ path, q.accepts path = true ∧ p.accepts path ≠ true := by
  obtain ⟨p, q, hp, hq, h⟩ := exists_compiled "**/b/a/" ".\\b/**/c/b//**/a"
    (fun p q => decide p.WildcardFree && decide q.WildcardFree && !p.covers q) (by decide +kernel)
  rw [Bool.and_eq_true, Bool.and_eq_true, decide_eq_true_eq, decide_eq_true_eq,
    Bool.not_eq_true'] at h
  obtain ⟨⟨hfp, hfq⟩, hcovers⟩ := h
  have hgap : ¬ ∀ path, q.accepts path = true → p.accepts path = true := by
    intro hall
    exact Bool.noConfusion (hcovers.symm.trans ((covers_iff_forall_path hq hfp hfq).mpr hall))
  simp only [not_forall, exists_prop] at hgap
  exact ⟨p, q, hp, hq, hfp, hfq, hcovers, hgap⟩

/-- On patterns without wildcards, `intersects` decides whether both accept some path. -/
theorem intersects_iff_exists_path {first second : String} {p q : Pattern}
    (hp : compile first = .ok p) (hq : compile second = .ok q) (hfp : p.WildcardFree)
    (hfq : q.WildcardFree) :
    p.intersects q = true ↔ ∃ path, p.accepts path = true ∧ q.accepts path = true := by
  have hone (s : Segment) (hs : s.IsName) : ∃ name, IsSegment name ∧ s.accepts name = true := by
    obtain ⟨text, rfl, htext⟩ := hs
    exact ⟨text, htext, beq_self_eq_true text⟩
  have hboth (s t : Segment) (hs : s.IsName) (ht : t.IsName) (hst : s.intersects t = true) :
      ∃ name, IsSegment name ∧ s.accepts name = true ∧ t.accepts name = true := by
    obtain ⟨text, rfl, htext⟩ := hs
    obtain ⟨other, rfl, -⟩ := ht
    have hsame : text = other := beq_iff_eq.mp hst
    exact ⟨text, htext, beq_self_eq_true text, beq_iff_eq.mpr hsame.symm⟩
  constructor
  · intro hmeet
    obtain ⟨parts, hparts, hcutLeft, hcutRight⟩ :=
      (intersects_iff_meets.mp hmeet).exists_cut hone hone hboth (isName_of_mem_steps hp hfp)
        (isName_of_mem_steps hq hfq)
    obtain ⟨path, rfl⟩ := Location.exists_pathSegments_eq hparts
    exact ⟨path, acceptsSegments_iff_cut.mpr hcutLeft, acceptsSegments_iff_cut.mpr hcutRight⟩
  · rintro ⟨path, hpath, hpath'⟩
    exact intersects_of_acceptsSegments hpath hpath'

theorem intersects_iff_exists_path_crossed : ∃ p q : Pattern,
    compile "**/a/b/**" = .ok p ∧ compile "/c/**/**/b/a/" = .ok q ∧ p.WildcardFree ∧
      q.WildcardFree ∧ ∃ path, p.accepts path = true ∧ q.accepts path = true := by
  obtain ⟨p, q, hp, hq, h⟩ := exists_compiled "**/a/b/**" "/c/**/**/b/a/"
    (fun p q => decide p.WildcardFree && decide q.WildcardFree && p.intersects q)
    (by decide +kernel)
  rw [Bool.and_eq_true, Bool.and_eq_true, decide_eq_true_eq, decide_eq_true_eq] at h
  obtain ⟨⟨hfp, hfq⟩, hmeet⟩ := h
  exact ⟨p, q, hp, hq, hfp, hfq, (intersects_iff_exists_path hp hq hfp hfq).mp hmeet⟩

end Pattern

end Ownership
