import Ownership.Wild

set_option autoImplicit false

/-!
# Rows decide cuts

`reach` keeps one answer for each suffix of a sequence. Read entry by entry it is `accepts`, which
recurs on the steps and the sequence, and `accepts` holds exactly of the sequences that can be cut.
Cuts compose: when the elements of one sequence are themselves read as steps, cutting it and then
cutting a second one along it cuts the second one along the first steps.
-/
namespace Ownership.Wild

section Rows

variable {τ α : Type} (passes : τ → α → Bool)

theorem exists_reach_nil (steps : List (Step τ)) : ∃ b, reach passes steps [] = [b] := by
  induction steps with
  | nil => exact ⟨true, rfl⟩
  | cons s steps ih =>
    cases s with
    | one t => exact ⟨false, rfl⟩
    | run =>
      obtain ⟨b, hb⟩ := ih
      exact ⟨b || false, by simp only [reach, hb, runRow, List.headD_nil]⟩

theorem exists_reach_cons (steps : List (Step τ)) (x : α) (xs : List α) :
    ∃ b, reach passes steps (x :: xs) = b :: reach passes steps xs := by
  induction steps with
  | nil => exact ⟨false, rfl⟩
  | cons s steps ih =>
    obtain ⟨b, hb⟩ := ih
    cases s with
    | one t =>
      exact ⟨passes t x && (reach passes steps xs).headD false, by simp only [reach, hb, oneRow]⟩
    | run =>
      exact ⟨b || (runRow (reach passes steps xs)).headD false, by simp only [reach, hb, runRow]⟩

@[simp]
theorem accepts_nil_nil : accepts passes [] [] = true := rfl

@[simp]
theorem accepts_nil_cons (x : α) (xs : List α) : accepts passes [] (x :: xs) = false := rfl

@[simp]
theorem accepts_one_nil (t : τ) (steps : List (Step τ)) :
    accepts passes (.one t :: steps) [] = false := rfl

@[simp]
theorem accepts_one_cons (t : τ) (steps : List (Step τ)) (x : α) (xs : List α) :
    accepts passes (.one t :: steps) (x :: xs) = (passes t x && accepts passes steps xs) := by
  obtain ⟨b, hb⟩ := exists_reach_cons passes steps x xs
  simp only [accepts, reach, hb, oneRow, List.headD_cons]

@[simp]
theorem accepts_run_nil (steps : List (Step τ)) :
    accepts passes (.run :: steps) [] = accepts passes steps [] := by
  obtain ⟨b, hb⟩ := exists_reach_nil passes steps
  simp [accepts, reach, hb, runRow]

@[simp]
theorem accepts_run_cons (steps : List (Step τ)) (x : α) (xs : List α) :
    accepts passes (.run :: steps) (x :: xs) =
      (accepts passes steps (x :: xs) || accepts passes (.run :: steps) xs) := by
  obtain ⟨b, hb⟩ := exists_reach_cons passes steps x xs
  simp only [accepts, reach, hb, runRow, List.headD_cons]

end Rows

section Cuts

variable {τ α : Type} {passes : τ → α → Bool}

theorem Cut.run_cons {steps : List (Step τ)} {xs : List α} (x : α)
    (h : Cut passes (.run :: steps) xs) : Cut passes (.run :: steps) (x :: xs) := by
  cases h with
  | run block rest => exact .run (x :: block) rest

theorem cut_of_accepts {steps : List (Step τ)} {xs : List α}
    (h : accepts passes steps xs = true) : Cut passes steps xs := by
  induction steps generalizing xs with
  | nil =>
    cases xs with
    | nil => exact .nil
    | cons x xs => simp at h
  | cons s steps ih =>
    cases s with
    | one t =>
      cases xs with
      | nil => simp at h
      | cons x xs =>
        rw [accepts_one_cons, Bool.and_eq_true] at h
        exact .one h.1 (ih h.2)
    | run =>
      induction xs with
      | nil =>
        rw [accepts_run_nil] at h
        exact .run [] (ih h)
      | cons x xs longer =>
        rw [accepts_run_cons, Bool.or_eq_true] at h
        rcases h with h | h
        · exact .run [] (ih h)
        · exact (longer h).run_cons x

theorem accepts_of_cut {steps : List (Step τ)} {xs : List α} (h : Cut passes steps xs) :
    accepts passes steps xs = true := by
  induction h with
  | nil => rfl
  | one h rest ih => rw [accepts_one_cons, h, ih]; rfl
  | @run steps xs block rest ih =>
    induction block with
    | nil =>
      cases xs with
      | nil => exact (accepts_run_nil passes steps).trans ih
      | cons x xs => simp [ih]
    | cons b block longer => simp [longer]

theorem accepts_iff_cut {steps : List (Step τ)} {xs : List α} :
    accepts passes steps xs = true ↔ Cut passes steps xs :=
  ⟨cut_of_accepts, accepts_of_cut⟩

theorem cut_one_iff {t : τ} {steps : List (Step τ)} {xs : List α} :
    Cut passes (.one t :: steps) xs ↔
      ∃ x rest, xs = x :: rest ∧ passes t x = true ∧ Cut passes steps rest := by
  constructor
  · rintro (_ | ⟨h, rest⟩ | _)
    exact ⟨_, _, rfl, h, rest⟩
  · rintro ⟨x, rest, rfl, h, hrest⟩
    exact .one h hrest

theorem cut_run_iff {steps : List (Step τ)} {xs : List α} :
    Cut passes (.run :: steps) xs ↔ ∃ block rest, xs = block ++ rest ∧ Cut passes steps rest := by
  constructor
  · rintro (_ | _ | ⟨block, rest⟩)
    exact ⟨block, _, rfl, rest⟩
  · rintro ⟨block, rest, rfl, hrest⟩
    exact .run block hrest

theorem cut_run_run_iff {steps : List (Step τ)} {xs : List α} :
    Cut passes (.run :: .run :: steps) xs ↔ Cut passes (.run :: steps) xs := by
  constructor
  · intro h
    obtain ⟨block, rest, rfl, hrest⟩ := cut_run_iff.mp h
    obtain ⟨more, left, rfl, hleft⟩ := cut_run_iff.mp hrest
    rw [← List.append_assoc]
    exact .run (block ++ more) hleft
  · exact .run []

theorem Cut.append {first second : List (Step τ)} {xs ys : List α} (hx : Cut passes first xs)
    (hy : Cut passes second ys) : Cut passes (first ++ second) (xs ++ ys) := by
  induction hx with
  | nil => exact hy
  | one h rest ih => exact .one h ih
  | run block rest ih =>
    rw [List.append_assoc]
    exact .run block ih

theorem Cut.of_append {first second : List (Step τ)} {zs : List α}
    (h : Cut passes (first ++ second) zs) :
    ∃ xs ys, zs = xs ++ ys ∧ Cut passes first xs ∧ Cut passes second ys := by
  induction first generalizing zs with
  | nil => exact ⟨[], zs, rfl, .nil, h⟩
  | cons s first ih =>
    cases h with
    | @one t x _ zs h rest =>
      obtain ⟨xs, ys, rfl, hx, hy⟩ := ih rest
      exact ⟨x :: xs, ys, rfl, .one h hx, hy⟩
    | run block rest =>
      obtain ⟨xs, ys, rfl, hx, hy⟩ := ih rest
      exact ⟨block ++ xs, ys, by rw [List.append_assoc], .run block hx, hy⟩

theorem cut_append_iff {first second : List (Step τ)} {zs : List α} :
    Cut passes (first ++ second) zs ↔
      ∃ xs ys, zs = xs ++ ys ∧ Cut passes first xs ∧ Cut passes second ys := by
  constructor
  · exact Cut.of_append
  · rintro ⟨xs, ys, rfl, hx, hy⟩
    exact hx.append hy

theorem cut_concat_run_iff {steps : List (Step τ)} {xs : List α} :
    Cut passes (steps ++ [.run]) xs ↔ ∃ front, front <+: xs ∧ Cut passes steps front := by
  constructor
  · intro h
    obtain ⟨front, rest, rfl, hfront, -⟩ := h.of_append
    exact ⟨front, List.prefix_append front rest, hfront⟩
  · rintro ⟨front, ⟨rest, rfl⟩, hfront⟩
    have hrest : Cut passes [.run] (rest ++ []) := .run rest .nil
    rw [List.append_nil] at hrest
    exact hfront.append hrest

/-- Elements that stand for others are cut where those are, if a test passes none of them without
passing what it stands for. -/
theorem Cut.of_map {σ : Type} {covers : τ → σ → Bool} {f : σ → α} {steps : List (Step τ)}
    {ys : List σ}
    (back : ∀ t y, .one t ∈ steps → y ∈ ys → passes t (f y) = true → covers t y = true)
    (h : Cut passes steps (ys.map f)) : Cut covers steps ys := by
  induction steps generalizing ys with
  | nil =>
    cases ys with
    | nil => exact .nil
    | cons y ys => cases h
  | cons s steps ih =>
    cases s with
    | one t =>
      obtain ⟨x, rest, hxs, hpass, hrest⟩ := cut_one_iff.mp h
      obtain ⟨y, later, rfl, rfl, rfl⟩ := List.map_eq_cons_iff.mp hxs
      refine .one (back t y List.mem_cons_self List.mem_cons_self hpass) (ih ?_ hrest)
      intro t' y' ht hy
      exact back t' y' (List.mem_cons_of_mem _ ht) (List.mem_cons_of_mem y hy)
    | run =>
      obtain ⟨block, rest, hxs, hrest⟩ := cut_run_iff.mp h
      obtain ⟨taken, left, rfl, rfl, rfl⟩ := List.map_eq_append_iff.mp hxs
      refine .run taken (ih ?_ hrest)
      intro t y ht hy
      exact back t y (List.mem_cons_of_mem _ ht) (List.mem_append_right taken hy)

/-- Read the elements `ys` as steps. If a test that passes an element passes whatever that element,
as a step, passes, then what is cut along `ys` is cut along the steps that cut `ys`. -/
theorem Cut.comp {σ υ : Type} {covers : τ → σ → Bool} {view : σ → Step υ}
    {inner : υ → α → Bool}
    (sound : ∀ t s, covers t s = true →
      ∃ u, view s = .one u ∧ ∀ x, inner u x = true → passes t x = true)
    {steps : List (Step τ)} {ys : List σ} (h : Cut covers steps ys) {xs : List α}
    (hx : Cut inner (ys.map view) xs) : Cut passes steps xs := by
  induction h generalizing xs with
  | nil =>
    cases hx with
    | nil => exact .nil
  | @one t s steps ys h rest ih =>
    obtain ⟨u, hu, hpass⟩ := sound t s h
    rw [List.map_cons, hu] at hx
    cases hx with
    | one hone hrest => exact .one (hpass _ hone) (ih hrest)
  | run block rest ih =>
    -- whatever the elements of the block take, the run takes as one block
    rw [List.map_append] at hx
    obtain ⟨taken, left, rfl, _, hleft⟩ := hx.of_append
    exact .run taken (ih hleft)

end Cuts

end Ownership.Wild
