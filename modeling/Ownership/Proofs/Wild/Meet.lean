import Ownership.Proofs.Wild.Cut

set_option autoImplicit false

/-!
# Steps that may take a common sequence

`Meets` aligns two lists of steps. A step that takes one element needs a partner: another such step
that is compatible with it, or a run of the other list, which absorbs it. Steps that take a common
sequence are aligned along it, and a sequence can be read off an alignment.
-/
namespace Ownership.Wild

/-- `Meets compatible as bs`: the steps of the two lists can be aligned. -/
inductive Meets {σ τ : Type} (compatible : σ → τ → Bool) :
    List (Step σ) → List (Step τ) → Prop where
  | nil : Meets compatible [] []
  | one {s : σ} {t : τ} {as : List (Step σ)} {bs : List (Step τ)} (h : compatible s t = true)
      (rest : Meets compatible as bs) : Meets compatible (.one s :: as) (.one t :: bs)
  | skipLeft {as : List (Step σ)} {bs : List (Step τ)} (rest : Meets compatible as bs) :
      Meets compatible (.run :: as) bs
  | skipRight {as : List (Step σ)} {bs : List (Step τ)} (rest : Meets compatible as bs) :
      Meets compatible as (.run :: bs)
  | absorbRight {as : List (Step σ)} {b : Step τ} {bs : List (Step τ)}
      (rest : Meets compatible (.run :: as) bs) : Meets compatible (.run :: as) (b :: bs)
  | absorbLeft {a : Step σ} {as : List (Step σ)} {bs : List (Step τ)}
      (rest : Meets compatible as (.run :: bs)) : Meets compatible (a :: as) (.run :: bs)

section Inversion

variable {σ τ : Type} {compatible : σ → τ → Bool}

@[simp]
theorem meets_nil_nil : Meets compatible [] [] ↔ True :=
  ⟨fun _ => trivial, fun _ => .nil⟩

@[simp]
theorem not_meets_nil_one (t : τ) (bs : List (Step τ)) :
    ¬ Meets compatible [] (.one t :: bs) := by
  intro h
  cases h

@[simp]
theorem meets_nil_run (bs : List (Step τ)) :
    Meets compatible [] (.run :: bs) ↔ Meets compatible [] bs := by
  constructor
  · intro h
    cases h with
    | skipRight rest => exact rest
  · exact .skipRight

@[simp]
theorem not_meets_one_nil (s : σ) (as : List (Step σ)) :
    ¬ Meets compatible (.one s :: as) [] := by
  intro h
  cases h

@[simp]
theorem meets_run_nil (as : List (Step σ)) :
    Meets compatible (.run :: as) [] ↔ Meets compatible as [] := by
  constructor
  · intro h
    cases h with
    | skipLeft rest => exact rest
  · exact .skipLeft

@[simp]
theorem meets_one_one (s : σ) (as : List (Step σ)) (t : τ) (bs : List (Step τ)) :
    Meets compatible (.one s :: as) (.one t :: bs) ↔
      compatible s t = true ∧ Meets compatible as bs := by
  constructor
  · intro h
    cases h with
    | one h rest => exact ⟨h, rest⟩
  · intro h
    exact .one h.1 h.2

@[simp]
theorem meets_one_run (s : σ) (as : List (Step σ)) (bs : List (Step τ)) :
    Meets compatible (.one s :: as) (.run :: bs) ↔
      Meets compatible (.one s :: as) bs ∨ Meets compatible as (.run :: bs) := by
  constructor
  · intro h
    cases h with
    | skipRight rest => exact .inl rest
    | absorbLeft rest => exact .inr rest
  · rintro (h | h)
    · exact .skipRight h
    · exact .absorbLeft h

/-- Between two runs it does not matter which of them is skipped or absorbs the other. -/
@[simp]
theorem meets_run_cons (as : List (Step σ)) (b : Step τ) (bs : List (Step τ)) :
    Meets compatible (.run :: as) (b :: bs) ↔
      Meets compatible as (b :: bs) ∨ Meets compatible (.run :: as) bs := by
  constructor
  · intro h
    cases h with
    | skipLeft rest => exact .inl rest
    | skipRight rest => exact .inr rest
    | absorbRight rest => exact .inr rest
    | absorbLeft rest => exact .inl rest
  · rintro (h | h)
    · exact .skipLeft h
    · exact .absorbRight h

end Inversion

theorem Meets.symm {σ τ : Type} {compatible : σ → τ → Bool} {as : List (Step σ)}
    {bs : List (Step τ)} (h : Meets compatible as bs) :
    Meets (fun t s => compatible s t) bs as := by
  induction h with
  | nil => exact .nil
  | one h _ ih => exact .one h ih
  | skipLeft _ ih => exact .skipRight ih
  | skipRight _ ih => exact .skipLeft ih
  | absorbRight _ ih => exact .absorbLeft ih
  | absorbLeft _ ih => exact .absorbRight ih

/-- Elements that are cut along steps are aligned with these steps when they are read as steps
themselves. -/
theorem Meets.of_cut {σ τ υ : Type} {covers : τ → σ → Bool} {view : σ → Step υ}
    {compatible : τ → υ → Bool}
    (hone : ∀ t y, covers t y = true → ∃ u, view y = .one u ∧ compatible t u = true)
    {steps : List (Step τ)} {ys : List σ} (h : Cut covers steps ys) :
    Meets compatible steps (ys.map view) := by
  induction h with
  | nil => exact .nil
  | @one t y steps ys h _ ih =>
    obtain ⟨u, hu, hcompatible⟩ := hone t y h
    rw [List.map_cons, hu]
    exact .one hcompatible ih
  | @run steps ys block _ ih =>
    induction block with
    | nil => exact .skipLeft ih
    | cons y block longer => exact .absorbRight longer

/-- Steps that take a common sequence are aligned along it. The recursion follows the alignment;
where two runs take an element together, the sequence gets shorter. -/
theorem meets_of_accepts {σ τ α : Type} {left : σ → α → Bool} {right : τ → α → Bool}
    {compatible : σ → τ → Bool}
    (sound : ∀ s t x, left s x = true → right t x = true → compatible s t = true) :
    ∀ (as : List (Step σ)) (bs : List (Step τ)) (xs : List α),
      accepts left as xs = true → accepts right bs xs = true → Meets compatible as bs
  | [], [], _, _, _ => .nil
  | [], .one _ :: _, [], _, hb => by simp at hb
  | [], .run :: bs, [], ha, hb => by
    rw [accepts_run_nil] at hb
    exact .skipRight (meets_of_accepts sound [] bs [] ha hb)
  | [], _ :: _, _ :: _, ha, _ => by simp at ha
  | .one _ :: _, _, [], ha, _ => by simp at ha
  | .one _ :: _, [], _ :: _, _, hb => by simp at hb
  | .one s :: as, .one t :: bs, x :: xs, ha, hb => by
    rw [accepts_one_cons, Bool.and_eq_true] at ha hb
    exact .one (sound s t x ha.1 hb.1) (meets_of_accepts sound as bs xs ha.2 hb.2)
  | .one s :: as, .run :: bs, x :: xs, ha, hb => by
    rw [accepts_run_cons, Bool.or_eq_true] at hb
    rcases hb with hb | hb
    · exact .skipRight (meets_of_accepts sound (.one s :: as) bs (x :: xs) ha hb)
    · rw [accepts_one_cons, Bool.and_eq_true] at ha
      exact .absorbLeft (meets_of_accepts sound as (.run :: bs) xs ha.2 hb)
  | .run :: as, bs, [], ha, hb => by
    rw [accepts_run_nil] at ha
    exact .skipLeft (meets_of_accepts sound as bs [] ha hb)
  | .run :: as, [], _ :: _, _, hb => by simp at hb
  | .run :: as, .one t :: bs, x :: xs, ha, hb => by
    rw [accepts_run_cons, Bool.or_eq_true] at ha
    rcases ha with ha | ha
    · exact .skipLeft (meets_of_accepts sound as (.one t :: bs) (x :: xs) ha hb)
    · rw [accepts_one_cons, Bool.and_eq_true] at hb
      exact .absorbRight (meets_of_accepts sound (.run :: as) bs xs ha hb.2)
  | .run :: as, .run :: bs, x :: xs, ha, hb => by
    rw [accepts_run_cons, Bool.or_eq_true] at ha hb
    rcases ha with ha | ha
    · exact .skipLeft (meets_of_accepts sound as (.run :: bs) (x :: xs) ha
        (by rw [accepts_run_cons, Bool.or_eq_true]; exact hb))
    · rcases hb with hb | hb
      · exact .skipRight (meets_of_accepts sound (.run :: as) bs (x :: xs)
          (by rw [accepts_run_cons, ha, Bool.or_true]) hb)
      · exact meets_of_accepts sound (.run :: as) (.run :: bs) xs ha hb
termination_by as bs xs => as.length + bs.length + xs.length

/-- Aligned steps take a common sequence, if each of their tests passes some element, and two
compatible ones an element in common. -/
theorem Meets.exists_cut {σ τ α : Type} {left : σ → α → Bool} {right : τ → α → Bool}
    {compatible : σ → τ → Bool} {P : σ → Prop} {Q : τ → Prop} {good : α → Prop}
    (hleft : ∀ s, P s → ∃ x, good x ∧ left s x = true)
    (hright : ∀ t, Q t → ∃ x, good x ∧ right t x = true)
    (hboth : ∀ s t, P s → Q t → compatible s t = true →
      ∃ x, good x ∧ left s x = true ∧ right t x = true)
    {as : List (Step σ)} {bs : List (Step τ)} (h : Meets compatible as bs)
    (has : ∀ s, .one s ∈ as → P s) (hbs : ∀ t, .one t ∈ bs → Q t) :
    ∃ xs, (∀ x ∈ xs, good x) ∧ Cut left as xs ∧ Cut right bs xs := by
  induction h with
  | nil => exact ⟨[], List.forall_mem_nil _, .nil, .nil⟩
  | @one s t as bs hst _ ih =>
    obtain ⟨x, hx, hsx, htx⟩ :=
      hboth s t (has s List.mem_cons_self) (hbs t List.mem_cons_self) hst
    obtain ⟨xs, hxs, hcutLeft, hcutRight⟩ :=
      ih (fun s' hs => has s' (List.mem_cons_of_mem _ hs))
        (fun t' ht => hbs t' (List.mem_cons_of_mem _ ht))
    exact ⟨x :: xs, List.forall_mem_cons.mpr ⟨hx, hxs⟩, .one hsx hcutLeft, .one htx hcutRight⟩
  | skipLeft _ ih =>
    obtain ⟨xs, hxs, hcutLeft, hcutRight⟩ :=
      ih (fun s' hs => has s' (List.mem_cons_of_mem _ hs)) hbs
    exact ⟨xs, hxs, .run [] hcutLeft, hcutRight⟩
  | skipRight _ ih =>
    obtain ⟨xs, hxs, hcutLeft, hcutRight⟩ :=
      ih has (fun t' ht => hbs t' (List.mem_cons_of_mem _ ht))
    exact ⟨xs, hxs, hcutLeft, .run [] hcutRight⟩
  | @absorbRight as b bs _ ih =>
    obtain ⟨xs, hxs, hcutLeft, hcutRight⟩ :=
      ih has (fun t' ht => hbs t' (List.mem_cons_of_mem _ ht))
    cases b with
    | one t =>
      obtain ⟨x, hx, htx⟩ := hright t (hbs t List.mem_cons_self)
      exact ⟨x :: xs, List.forall_mem_cons.mpr ⟨hx, hxs⟩, hcutLeft.run_cons x,
        .one htx hcutRight⟩
    | run => exact ⟨xs, hxs, hcutLeft, .run [] hcutRight⟩
  | @absorbLeft a as bs _ ih =>
    obtain ⟨xs, hxs, hcutLeft, hcutRight⟩ :=
      ih (fun s' hs => has s' (List.mem_cons_of_mem _ hs)) hbs
    cases a with
    | one s =>
      obtain ⟨x, hx, hsx⟩ := hleft s (has s List.mem_cons_self)
      exact ⟨x :: xs, List.forall_mem_cons.mpr ⟨hx, hxs⟩, .one hsx hcutLeft,
        hcutRight.run_cons x⟩
    | run => exact ⟨xs, hxs, .run [] hcutLeft, hcutRight⟩

end Ownership.Wild
