import Ownership.Proofs.Text.Pieces
import Ownership.Text.Lower

set_option autoImplicit false

/-!
# Lower case keeps words

A word in lower case is still a word. No run of the case table has a blank character among its
images, so lower case never makes one.
-/
namespace Ownership.Text

def blankRanges : List (Nat × Nat) :=
  [(9, 13), (0x20, 0x20), (0x85, 0x85), (0xA0, 0xA0), (0x1680, 0x1680), (0x2000, 0x200A),
    (0x2028, 0x2029), (0x202F, 0x202F), (0x205F, 0x205F), (0x3000, 0x3000)]

theorem exists_range_of_isBlank {c : Char} (h : isBlank c = true) :
    ∃ range ∈ blankRanges, range.1 ≤ c.toNat ∧ c.toNat ≤ range.2 := by
  simp only [isBlank, Bool.or_eq_true, Bool.and_eq_true, decide_eq_true_eq, beq_iff_eq] at h
  simp only [blankRanges, List.mem_cons, List.not_mem_nil, or_false, exists_eq_or_imp,
    exists_eq_left]
  omega

def CaseRun.avoids (r : CaseRun) (range : Nat × Nat) : Bool :=
  r.last + r.offset < range.1 || range.2 < r.first + r.offset

theorem lowerRuns_avoid_blanks :
    lowerRuns.toList.all (fun r => blankRanges.all r.avoids) = true := by
  decide +kernel

theorem toNat_ofNat_eq_or (n : Nat) : (Char.ofNat n).toNat = n ∨ (Char.ofNat n).toNat = 0 := by
  by_cases h : n.isValidChar
  · left
    rw [Char.ofNat, dif_pos h]
    rfl
  · right
    rw [Char.ofNat, dif_neg h]
    rfl

theorem CaseRun.not_isBlank {r : CaseRun} (hr : r ∈ lowerRuns) {n : Nat} (hn : r.holds n = true) :
    isBlank (Char.ofNat (n + r.offset).toNat) = false := by
  refine Bool.eq_false_iff.mpr fun hblank => ?_
  obtain ⟨range, hrange, hlow, hhigh⟩ := exists_range_of_isBlank hblank
  have havoids : r.avoids range = true :=
    List.all_eq_true.mp (List.all_eq_true.mp lowerRuns_avoid_blanks r hr.val) range hrange
  simp only [CaseRun.avoids, Bool.or_eq_true, decide_eq_true_eq] at havoids
  simp only [CaseRun.holds, Bool.and_eq_true, decide_eq_true_eq] at hn
  have hpositive : ∀ range ∈ blankRanges, 0 < range.1 := by decide
  have hpos := hpositive range hrange
  rcases toNat_ofNat_eq_or (n + r.offset).toNat with hnumber | hnumber <;> omega

theorem lowerChar_ne_nil (c : Char) : lowerChar c ≠ [] := by
  unfold lowerChar
  split
  · exact List.cons_ne_nil _ _
  · split <;> exact List.cons_ne_nil _ _

theorem nonblank_lowerChar {c : Char} (h : isBlank c = false) :
    ∀ d ∈ lowerChar c, isBlank d = false := by
  by_cases hc : c = 'İ'
  · rw [lowerChar, if_pos hc]
    exact List.forall_mem_cons.mpr ⟨by decide, List.forall_mem_singleton.mpr (by decide)⟩
  · rw [lowerChar, if_neg hc]
    split
    · next r hr =>
      intro d hd
      have hmem := Array.mem_of_find?_eq_some hr
      have hholds := Array.find?_some hr
      rw [List.mem_singleton.mp hd]
      exact CaseRun.not_isBlank hmem hholds
    · intro d hd
      rw [List.mem_singleton.mp hd]
      exact h

theorem nonblank_lowerFrom {cs : List Char} (before : List Char)
    (h : ∀ c ∈ cs, isBlank c = false) : ∀ d ∈ lowerFrom before cs, isBlank d = false := by
  induction cs generalizing before with
  | nil => exact fun d hd => absurd hd List.not_mem_nil
  | cons c cs ih =>
    intro d hd
    rcases List.mem_append.mp hd with hd | hd
    · split at hd
      · rw [List.mem_singleton.mp hd]
        decide
      · exact nonblank_lowerChar (h c List.mem_cons_self) d hd
    · exact ih (c :: before) (fun c hc => h c (List.mem_cons_of_mem _ hc)) d hd

theorem lower_ne_nil {cs : List Char} (h : cs ≠ []) : lower cs ≠ [] := by
  obtain ⟨c, cs, rfl⟩ := List.exists_cons_of_ne_nil h
  intro hnil
  have hhere := (List.append_eq_nil_iff.mp hnil).1
  split at hhere
  · cases hhere
  · exact lowerChar_ne_nil c hhere

theorem IsWord.lower {cs : List Char} (h : IsWord cs) : IsWord (lower cs) :=
  ⟨lower_ne_nil h.ne_nil, nonblank_lowerFrom [] h.nonblank⟩

end Ownership.Text
