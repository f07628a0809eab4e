import Ownership.Proofs.Except
import Ownership.Proofs.Glob.Class

set_option autoImplicit false

/-!
# How the members of a class are written

The members of a class are a sequence of stretches: a first character and, each behind a `-`, the
ends that its range is given one after the other. A `-` begins only the first stretch, and one that
is left at the end is a member. Reading a class fails exactly when an end comes before the first
character of its stretch, and else gives the ranges of the stretches.
-/
namespace Ownership.Glob

structure Stretch where
  first : Char
  ends : List Char

namespace Stretch

def chars (s : Stretch) : List Char :=
  s.first :: s.ends.flatMap fun last => ['-', last]

/-- The last end counts. -/
def range (s : Stretch) : Char × Char :=
  (s.first, s.ends.getLastD s.first)

def IsReversed (s : Stretch) : Prop :=
  ∃ last ∈ s.ends, last < s.first

end Stretch

/-- `ms` is the text of the stretches, with a `-` behind them if `dash` says so. -/
structure AreWritten (ms : List Char) (stretches : List Stretch) (dash : Bool) : Prop where
  chars : ms = stretches.flatMap Stretch.chars ++ if dash then ['-'] else []
  ne_nil : stretches ≠ []
  later : ∀ s ∈ stretches.tail, s.first ≠ '-'

def rangesOf (stretches : List Stretch) (dash : Bool) : List (Char × Char) :=
  stretches.map Stretch.range ++ if dash then [('-', '-')] else []

/-! ## Members are written somehow -/

theorem exists_stretches (first : Char) (ms : List Char) :
    ∃ (ends : List Char) (stretches : List Stretch) (dash : Bool),
      first :: ms = (Stretch.mk first ends :: stretches).flatMap Stretch.chars ++
        (if dash then ['-'] else []) ∧ ∀ s ∈ stretches, s.first ≠ '-' := by
  match ms with
  | [] => exact ⟨[], [], false, rfl, List.forall_mem_nil _⟩
  | m :: ms =>
    by_cases hdash : m = '-'
    · subst hdash
      match ms with
      | [] => exact ⟨[], [], true, rfl, List.forall_mem_nil _⟩
      | last :: ms =>
        obtain ⟨ends, stretches, dash, hchars, hlater⟩ := exists_stretches first ms
        refine ⟨last :: ends, stretches, dash, ?_, hlater⟩
        rw [(List.cons.inj hchars).2]
        rfl
    · -- a new stretch
      obtain ⟨ends, stretches, dash, hchars, hlater⟩ := exists_stretches m ms
      refine ⟨[], ⟨m, ends⟩ :: stretches, dash, ?_, List.forall_mem_cons.mpr ⟨hdash, hlater⟩⟩
      rw [hchars]
      rfl
termination_by ms.length

theorem exists_areWritten {ms : List Char} (h : ms ≠ []) :
    ∃ stretches dash, AreWritten ms stretches dash := by
  obtain ⟨first, rest, rfl⟩ := List.exists_cons_of_ne_nil h
  obtain ⟨ends, stretches, dash, hchars, hlater⟩ := exists_stretches first rest
  exact ⟨⟨first, ends⟩ :: stretches, dash, hchars, List.cons_ne_nil _ _, hlater⟩

/-! ## Reading them -/

namespace OpenClass

theorem add_member {k : OpenClass} {c : Char} (hpending : k.pending = false)
    (hnew : k.fresh = true ∨ c ≠ '-') :
    k.add c = .ok { k with fresh := false, ranges := (c, c) :: k.ranges } := by
  have hmember : (decide (c = '-') && !k.fresh) = false := by
    rcases hnew with hfresh | hc
    · rw [hfresh, Bool.not_true, Bool.and_false]
    · rw [decide_eq_false hc, Bool.false_and]
  rw [add, hpending, hmember]
  rfl

variable {negated : Bool} {ranges : List (Char × Char)} {r : OpenClass}

theorem foldlM_append_eq_ok_iff {k : OpenClass} {cs ds : List Char} :
    (cs ++ ds).foldlM add k = .ok r ↔
      ∃ next, cs.foldlM add k = .ok next ∧ ds.foldlM add next = .ok r := by
  rw [List.foldlM_append, bind_eq_ok_iff]

theorem foldlM_ends_eq_ok_iff {first last : Char} {ends : List Char} :
    (ends.flatMap fun last => ['-', last]).foldlM add
        ⟨negated, false, false, (first, last) :: ranges⟩ = .ok r ↔
      (∀ last ∈ ends, ¬ last < first) ∧
        r = ⟨negated, false, false, (first, ends.getLastD last) :: ranges⟩ := by
  induction ends generalizing last with
  | nil =>
    rw [and_iff_right (List.forall_mem_nil _)]
    constructor
    · intro h
      exact (Except.ok.inj h).symm
    · rintro rfl
      rfl
  | cons next ends ih =>
    have hpair : ['-', next].foldlM add ⟨negated, false, false, (first, last) :: ranges⟩ =
        (if next < first then .error (.invalidRange first next)
        else .ok ⟨negated, false, false, (first, next) :: ranges⟩) >>= pure := rfl
    rw [bind_pure] at hpair
    rw [List.flatMap_cons, foldlM_append_eq_ok_iff, hpair, List.forall_mem_cons]
    by_cases hreversed : next < first
    · rw [if_pos hreversed]
      refine iff_of_false ?_ fun h => h.1.1 hreversed
      rintro ⟨_, h, -⟩
      cases h
    · rw [if_neg hreversed, and_iff_right hreversed, List.getLastD_cons, ← ih]
      constructor
      · rintro ⟨_, hnext, h⟩
        cases hnext
        exact h
      · intro h
        exact ⟨_, rfl, h⟩

theorem foldlM_stretch_eq_ok_iff {k : OpenClass} {s : Stretch} (hpending : k.pending = false)
    (hnew : k.fresh = true ∨ s.first ≠ '-') :
    s.chars.foldlM add k = .ok r ↔
      ¬ s.IsReversed ∧ r = ⟨k.negated, false, false, s.range :: k.ranges⟩ := by
  obtain ⟨negated, fresh, pending, ranges⟩ := k
  obtain rfl : pending = false := hpending
  rw [Stretch.chars, List.foldlM_cons, add_member rfl hnew]
  refine foldlM_ends_eq_ok_iff.trans ?_
  simp only [Stretch.IsReversed, not_exists, not_and, Stretch.range]

theorem foldlM_stretches_eq_ok_iff {stretches : List Stretch}
    (h : ∀ s ∈ stretches, s.first ≠ '-') :
    (stretches.flatMap Stretch.chars).foldlM add ⟨negated, false, false, ranges⟩ = .ok r ↔
      (∀ s ∈ stretches, ¬ s.IsReversed) ∧
        r = ⟨negated, false, false, (stretches.map Stretch.range).reverse ++ ranges⟩ := by
  induction stretches generalizing ranges with
  | nil =>
    rw [and_iff_right (List.forall_mem_nil _)]
    constructor
    · intro h
      exact (Except.ok.inj h).symm
    · rintro rfl
      rfl
  | cons s stretches ih =>
    obtain ⟨hs, hrest⟩ := List.forall_mem_cons.mp h
    rw [List.flatMap_cons, foldlM_append_eq_ok_iff, List.forall_mem_cons, List.map_cons,
      List.reverse_cons, List.append_assoc]
    constructor
    · rintro ⟨next, hnext, hr⟩
      obtain ⟨horder, rfl⟩ := (foldlM_stretch_eq_ok_iff rfl (.inr hs)).mp hnext
      obtain ⟨hall, hr⟩ := (ih hrest).mp hr
      exact ⟨⟨horder, hall⟩, hr⟩
    · rintro ⟨⟨horder, hall⟩, hr⟩
      exact ⟨_, (foldlM_stretch_eq_ok_iff rfl (.inr hs)).mpr ⟨horder, rfl⟩,
        (ih hrest).mpr ⟨hall, hr⟩⟩

theorem foldlM_dash (dash : Bool) :
    (if dash then ['-'] else []).foldlM add ⟨negated, false, false, ranges⟩ =
      .ok ⟨negated, false, dash, ranges⟩ := by
  cases dash <;> rfl

theorem foldlM_members_eq_ok_iff {ms : List Char} {stretches : List Stretch} {dash : Bool}
    (h : AreWritten ms stretches dash) :
    ms.foldlM add ⟨negated, true, false, []⟩ = .ok r ↔
      (∀ s ∈ stretches, ¬ s.IsReversed) ∧
        r = ⟨negated, false, dash, (stretches.map Stretch.range).reverse⟩ := by
  obtain ⟨rfl, hne, hlater⟩ := h
  obtain ⟨s, stretches, rfl⟩ := List.exists_cons_of_ne_nil hne
  rw [List.flatMap_cons, List.append_assoc, foldlM_append_eq_ok_iff, List.forall_mem_cons,
    List.map_cons, List.reverse_cons]
  constructor
  · rintro ⟨next, hfirst, hnext⟩
    obtain ⟨hs, rfl⟩ := (foldlM_stretch_eq_ok_iff rfl (.inl rfl)).mp hfirst
    obtain ⟨last, hrest, hlast⟩ := foldlM_append_eq_ok_iff.mp hnext
    obtain ⟨horder, rfl⟩ := (foldlM_stretches_eq_ok_iff hlater).mp hrest
    rw [foldlM_dash] at hlast
    exact ⟨⟨hs, horder⟩, (Except.ok.inj hlast).symm⟩
  · rintro ⟨⟨hs, horder⟩, rfl⟩
    have hrest : (stretches.flatMap Stretch.chars).foldlM add
        ⟨negated, false, false, [s.range]⟩ =
          .ok ⟨negated, false, false, (stretches.map Stretch.range).reverse ++ [s.range]⟩ :=
      (foldlM_stretches_eq_ok_iff hlater).mpr ⟨horder, rfl⟩
    exact ⟨_, (foldlM_stretch_eq_ok_iff rfl (.inl rfl)).mpr ⟨hs, rfl⟩,
      foldlM_append_eq_ok_iff.mpr ⟨_, hrest, foldlM_dash dash⟩⟩

theorem close_stretches (stretches : List Stretch) (dash : Bool) :
    close ⟨negated, false, dash, (stretches.map Stretch.range).reverse⟩ =
      ⟨negated, rangesOf stretches dash⟩ := by
  cases dash <;> simp [close, rangesOf]

end OpenClass

theorem readClass_eq_ok_iff {body : List Char} {k : ByteClass} :
    readClass body = .ok k ↔
      ∃ r, (members body).foldlM OpenClass.add ⟨isNegated body, true, false, []⟩ = .ok r ∧
        k = r.close :=
  map_eq_ok_iff

/-- A class that is written as stretches is read to their ranges, unless one is reversed. -/
theorem readClass_eq_ok_iff_ranges {body : List Char} {stretches : List Stretch} {dash : Bool}
    (h : AreWritten (members body) stretches dash) {k : ByteClass} :
    readClass body = .ok k ↔
      (∀ s ∈ stretches, ¬ s.IsReversed) ∧ k = ⟨isNegated body, rangesOf stretches dash⟩ := by
  rw [readClass_eq_ok_iff]
  simp only [OpenClass.foldlM_members_eq_ok_iff h]
  constructor
  · rintro ⟨r, ⟨horder, rfl⟩, rfl⟩
    exact ⟨horder, OpenClass.close_stretches stretches dash⟩
  · rintro ⟨horder, rfl⟩
    exact ⟨_, ⟨horder, rfl⟩, (OpenClass.close_stretches stretches dash).symm⟩

end Ownership.Glob
