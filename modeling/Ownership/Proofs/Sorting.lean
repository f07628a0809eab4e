import Ownership.Impact

set_option autoImplicit false

/-!
# Sorted paths

Sorting brings equal paths together. So a sorted list without the repetitions in a row has every
path once.
-/
namespace Ownership

theorem pairwise_sortPaths (paths : List String) : (sortPaths paths).Pairwise (· ≤ ·) := by
  have hsorted : (sortPaths paths).Pairwise fun a b => decide (a ≤ b) = true := by
    refine List.pairwise_mergeSort ?_ ?_ _
    · intro a b c hab hbc
      simp only [decide_eq_true_eq] at hab hbc ⊢
      exact String.le_trans hab hbc
    · intro a b
      simp only [Bool.or_eq_true, decide_eq_true_eq]
      exact String.le_total a b
  exact hsorted.imp of_decide_eq_true

theorem mem_sortPaths {path : String} {paths : List String} :
    path ∈ sortPaths paths ↔ path ∈ paths :=
  (List.mergeSort_perm _ _).mem_iff

section Repetitions

variable {α : Type} [BEq α]

theorem eraseRepsBy_loop_eq (x : α) (xs done : List α) :
    List.eraseRepsBy.loop (· == ·) x xs done =
      done.reverse ++ List.eraseRepsBy.loop (· == ·) x xs [] := by
  induction xs generalizing x done with
  | nil => simp [List.eraseRepsBy.loop]
  | cons y ys ih =>
    rw [List.eraseRepsBy.loop, List.eraseRepsBy.loop]
    split
    · exact ih x done
    · rw [ih y (x :: done), ih y [x], List.reverse_cons, List.append_assoc]
      rfl

variable [LawfulBEq α]

theorem eraseReps_cons_self (x : α) (xs : List α) :
    (x :: x :: xs).eraseReps = (x :: xs).eraseReps := by
  simp [List.eraseReps, List.eraseRepsBy, List.eraseRepsBy.loop]

theorem eraseReps_cons_of_ne {x y : α} (h : x ≠ y) (xs : List α) :
    (x :: y :: xs).eraseReps = x :: (y :: xs).eraseReps := by
  have hloop := eraseRepsBy_loop_eq y xs [x]
  have hne : (x == y) = false := beq_eq_false_iff_ne.mpr h
  simp only [List.eraseReps, List.eraseRepsBy, List.eraseRepsBy.loop, hne]
  exact hloop

theorem mem_eraseReps {a : α} {xs : List α} : a ∈ xs.eraseReps ↔ a ∈ xs := by
  induction xs with
  | nil => exact Iff.rfl
  | cons x xs ih =>
    cases xs with
    | nil => exact Iff.rfl
    | cons y ys =>
      by_cases h : x = y
      · subst h
        rw [eraseReps_cons_self, ih]
        simp
      · rw [eraseReps_cons_of_ne h, List.mem_cons, ih, List.mem_cons (a := a) (b := x)]

end Repetitions

theorem pairwise_eraseReps {paths : List String} (h : paths.Pairwise (· ≤ ·)) :
    paths.eraseReps.Pairwise (· < ·) := by
  induction paths with
  | nil => exact .nil
  | cons x xs ih =>
    obtain ⟨hx, hxs⟩ := List.pairwise_cons.mp h
    cases xs with
    | nil => exact List.pairwise_singleton _ _
    | cons y ys =>
      by_cases heq : x = y
      · subst heq
        rw [eraseReps_cons_self]
        exact ih hxs
      · rw [eraseReps_cons_of_ne heq]
        refine List.pairwise_cons.mpr ⟨?_, ih hxs⟩
        intro z hz
        have hxy : x < y := String.not_le.mp fun hyx =>
          heq (String.le_antisymm (hx y List.mem_cons_self) hyx)
        have hyz : y ≤ z := by
          rcases List.mem_cons.mp (mem_eraseReps.mp hz) with rfl | hz
          · exact String.le_refl z
          · exact (List.pairwise_cons.mp hxs).1 z hz
        exact String.not_le.mp fun hzx => String.not_lt.mpr (String.le_trans hyz hzx) hxy

end Ownership
