import Mathlib.Data.List.Infix
import Ownership.Proofs.Wild.Cut

set_option autoImplicit false

/-!
# Rows over prefixes

`scan` keeps one answer for each prefix of a sequence. The row behind some steps has the answers of
`accepts` for these steps, and one more step makes of it the row that has them for one step more. So
the last entry tells whether all steps use up the whole sequence, as `accepts` does from the other
end.
-/
namespace Ownership.Wild

variable {τ α : Type} (passes : τ → α → Bool)

section OneMore

variable (steps : List (Step τ)) (t : τ)

theorem accepts_concat_one_nil : accepts passes (steps ++ [.one t]) [] = false := by
  rw [Bool.eq_false_iff, Ne, accepts_iff_cut, cut_append_iff]
  rintro ⟨front, rest, hsplit, -, hrest⟩
  obtain ⟨-, rfl⟩ := List.append_eq_nil_iff.mp hsplit.symm
  cases hrest

theorem accepts_concat_one_concat (front : List α) (x : α) :
    accepts passes (steps ++ [.one t]) (front ++ [x]) =
      (accepts passes steps front && passes t x) := by
  rw [Bool.eq_iff_iff, Bool.and_eq_true, accepts_iff_cut, accepts_iff_cut, cut_append_iff]
  constructor
  · rintro ⟨taken, rest, hsplit, htaken, hrest⟩
    obtain ⟨y, left, rfl, hpass, hleft⟩ := cut_one_iff.mp hrest
    cases hleft
    obtain ⟨rfl, hlast⟩ := List.append_inj' hsplit rfl
    obtain rfl := List.singleton_inj.mp hlast
    exact ⟨htaken, hpass⟩
  · rintro ⟨hfront, hpass⟩
    exact ⟨front, [x], rfl, hfront, .one hpass .nil⟩

theorem accepts_concat_run (xs : List α) :
    accepts passes (steps ++ [.run]) xs = xs.inits.any (accepts passes steps) := by
  rw [Bool.eq_iff_iff, accepts_iff_cut, cut_concat_run_iff, List.any_eq_true]
  simp only [List.mem_inits, accepts_iff_cut]

theorem accepts_append_eq_false {xs : List α} (h : xs.inits.any (accepts passes steps) = false)
    (more : List (Step τ)) : accepts passes (steps ++ more) xs = false := by
  rw [Bool.eq_false_iff, Ne, accepts_iff_cut, cut_append_iff]
  rintro ⟨front, rest, rfl, hfront, -⟩
  refine Bool.eq_false_iff.mp h (List.any_eq_true.mpr ⟨front, ?_, accepts_iff_cut.mpr hfront⟩)
  exact (List.mem_inits _ _).mpr (List.prefix_append front rest)

end OneMore

/-! ## The rows -/

theorem startRow_eq (xs : List α) : startRow xs = xs.inits.map (accepts passes []) := by
  cases xs with
  | nil => rfl
  | cons x xs =>
    have hlonger : accepts passes [] ∘ (x :: ·) = fun _ => false := rfl
    rw [startRow, List.inits_cons, List.map_cons, List.map_map, hlonger, List.map_const',
      List.length_inits]
    rfl

theorem zipWith_inits {p : α → Bool} {f g : List α → Bool}
    (h : ∀ front x, g (front ++ [x]) = (f front && p x)) (xs : List α) :
    (xs.inits.map f).zipWith (fun b x => b && p x) xs = xs.inits.tail.map g := by
  induction xs generalizing f g with
  | nil => rfl
  | cons x xs ih =>
    have hrest := @ih (f ∘ (x :: ·)) (g ∘ (x :: ·)) fun front y => h (x :: front) y
    have hfirst : g [x] = (f [] && p x) := h [] x
    cases xs with
    | nil => simp [hfirst]
    | cons y xs =>
      rw [List.inits_cons, List.map_cons, List.zipWith_cons_cons, List.map_map, hrest]
      simp [hfirst]

theorem sweep_inits (any : Bool) (f : List α → Bool) (xs : List α) :
    sweep any (xs.inits.map f) = xs.inits.map fun front => any || front.inits.any f := by
  induction xs generalizing any f with
  | nil => simp [sweep]
  | cons x xs ih =>
    rw [List.inits_cons, List.map_cons, sweep, List.map_map, ih, List.map_cons, List.map_map]
    simp [Function.comp_def, Bool.or_assoc]

theorem advance_eq (steps : List (Step τ)) (xs : List α) (s : Step τ) :
    advance passes xs (xs.inits.map (accepts passes steps)) s =
      xs.inits.map (accepts passes (steps ++ [s])) := by
  cases s with
  | one t =>
    rw [advance, zipWith_inits (accepts_concat_one_concat passes steps t),
      ← accepts_concat_one_nil passes steps t]
    cases xs <;> rfl
  | run =>
    rw [advance, sweep_inits]
    refine List.map_congr_left ?_
    intro front _
    rw [Bool.false_or, accepts_concat_run]

theorem getLastD_inits (f : List α → Bool) (xs : List α) :
    (xs.inits.map f).getLastD false = f xs := by
  have hlast : xs.inits.getLast? = some xs := by
    rw [List.getLast?_eq_getElem?, List.length_inits, Nat.add_sub_cancel,
      List.getElem?_eq_getElem (by simp), List.getElem_inits, List.take_length]
  rw [List.getLastD_eq_getLast?, List.getLast?_map, hlast]
  rfl

theorem scanFrom_eq (xs : List α) (done steps : List (Step τ)) :
    scanFrom passes xs (xs.inits.map (accepts passes done)) steps =
      accepts passes (done ++ steps) xs := by
  induction steps generalizing done with
  | nil => rw [scanFrom, getLastD_inits, List.append_nil]
  | cons s steps ih =>
    have hsplit : done ++ s :: steps = done ++ [s] ++ steps := by simp
    rw [scanFrom, advance_eq, hsplit, List.any_map]
    split
    · exact ih (done ++ [s])
    · next hnone =>
      exact (accepts_append_eq_false passes (done ++ [s]) (Bool.not_eq_true _ ▸ hnone) steps).symm

/-- From the first step to the last and from the last to the first, the answer is the same. -/
theorem scan_eq_accepts (steps : List (Step τ)) (xs : List α) :
    scan passes steps xs = accepts passes steps xs := by
  rw [scan, startRow_eq passes, scanFrom_eq]
  rfl

end Ownership.Wild
