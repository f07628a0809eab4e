import Mathlib.Data.Char
import Ownership.Proofs.Glob.Characters
import Ownership.Proofs.Glob.Members

set_option autoImplicit false

/-!
# Stars in a row

Stars in a row are collapsed in the text of a segment, also inside its classes. Outside of classes
they are one run. In a class a star that follows another one begins a stretch right behind one that
ends; without it the two are a single stretch, which lists the same as long as neither is reversed.
-/
namespace Ownership.Glob
open Ownership.Wild

/-! ## The text -/

def afterStar (cs : List Char) : List Char :=
  (collapseStars ('*' :: cs)).tail

theorem collapseStars_star (cs : List Char) : collapseStars ('*' :: cs) = '*' :: afterStar cs := by
  induction cs with
  | nil => rfl
  | cons c cs ih =>
    by_cases hc : c = '*'
    · subst hc
      rw [afterStar, collapseStars, ih]
      rfl
    · rw [afterStar, collapseStars.eq_2]
      · rfl
      · simp [hc]

theorem collapseStars_cons {c : Char} (h : c ≠ '*') (cs : List Char) :
    collapseStars (c :: cs) = c :: collapseStars cs := by
  rw [collapseStars.eq_2]
  simp [h]

@[simp]
theorem afterStar_nil : afterStar [] = [] := rfl

@[simp]
theorem afterStar_star (cs : List Char) : afterStar ('*' :: cs) = afterStar cs := by
  rw [afterStar, collapseStars, collapseStars_star]
  rfl

theorem afterStar_cons {c : Char} (h : c ≠ '*') (cs : List Char) :
    afterStar (c :: cs) = collapseStars (c :: cs) := by
  rw [afterStar, collapseStars.eq_2]
  · rfl
  · simp [h]

theorem collapseStars_append_cons {x : Char} (h : x ≠ '*') (front back : List Char) :
    collapseStars (front ++ x :: back) = collapseStars front ++ x :: collapseStars back ∧
      afterStar (front ++ x :: back) = afterStar front ++ x :: collapseStars back := by
  induction front with
  | nil =>
    rw [List.nil_append, afterStar_cons h, collapseStars_cons h]
    exact ⟨rfl, rfl⟩
  | cons c front ih =>
    by_cases hc : c = '*'
    · subst hc
      simp only [List.cons_append, collapseStars_star, afterStar_star, ih.2, true_and]
    · simp only [List.cons_append, afterStar_cons hc, collapseStars_cons hc, ih.1, and_self]

theorem mem_collapseStars_iff {x : Char} (h : x ≠ '*') {cs : List Char} :
    (x ∈ collapseStars cs ↔ x ∈ cs) ∧ (x ∈ afterStar cs ↔ x ∈ cs) := by
  induction cs with
  | nil => exact ⟨Iff.rfl, Iff.rfl⟩
  | cons c cs ih =>
    by_cases hc : c = '*'
    · subst hc
      simp only [collapseStars_star, afterStar_star, List.mem_cons, ih.2, h, false_or, and_self]
    · simp only [afterStar_cons hc, collapseStars_cons hc, List.mem_cons, ih.1, and_self]

theorem mem_tail_collapseStars_iff {x : Char} (h : x ≠ '*') (cs : List Char) :
    x ∈ (collapseStars cs).tail ↔ x ∈ cs.tail := by
  cases cs with
  | nil => rfl
  | cons c cs =>
    by_cases hc : c = '*'
    · subst hc
      exact (mem_collapseStars_iff h).2
    · rw [collapseStars_cons hc]
      exact (mem_collapseStars_iff h).1

theorem collapseStars_eq_nil_iff {cs : List Char} : collapseStars cs = [] ↔ cs = [] := by
  cases cs with
  | nil => exact Iff.rfl
  | cons c cs =>
    by_cases hc : c = '*'
    · subst hc
      simp [collapseStars_star]
    · simp [collapseStars_cons hc]

/-! ## The text of a class -/

theorem members_collapseStars (body : List Char) :
    members (collapseStars body) = collapseStars (members body) ∧
      isNegated (collapseStars body) = isNegated body := by
  cases body with
  | nil => exact ⟨rfl, rfl⟩
  | cons c cs =>
    by_cases hc : c = '*'
    · subst hc
      have hsign : isSign '*' = false := rfl
      simp [collapseStars_star, members, isNegated, hsign]
    · rw [collapseStars_cons hc]
      by_cases hsign : isSign c = true
      · simp [members, isNegated, hsign]
      · simp [members, isNegated, hsign, collapseStars_cons hc]

theorem areMembers_collapseStars {body : List Char} (h : AreMembers (members body)) :
    AreMembers (members (collapseStars body)) := by
  rw [(members_collapseStars body).1]
  exact ⟨mt collapseStars_eq_nil_iff.mp h.1, mt (mem_tail_collapseStars_iff (by decide) _).mp h.2⟩

theorem membersLength_eq_none_iff {ms : List Char} :
    membersLength ms = none ↔ ']' ∉ ms.tail := by
  cases ms with
  | nil => simp [membersLength]
  | cons m ms =>
    rw [membersLength]
    split
    · simp
    · next hm => simp [Ne.symm hm]

theorem classLength_eq_none_iff {cs : List Char} :
    classLength cs = none ↔ ']' ∉ (members cs).tail := by
  cases cs with
  | nil => simp [classLength_nil, members]
  | cons c cs =>
    rw [classLength_cons, members]
    split
    · rw [Option.map_eq_none_iff, membersLength_eq_none_iff]
    · rw [membersLength_eq_none_iff]

theorem opensClass_collapseStars {c : Char} {cs : List Char} (h : opensClass c cs = none) :
    opensClass c (collapseStars cs) = none := by
  unfold opensClass at h ⊢
  split at h
  · next hc =>
    rw [if_pos hc, classLength_eq_none_iff, (members_collapseStars cs).1,
      mem_tail_collapseStars_iff (by decide)]
    exact classLength_eq_none_iff.mp h
  · next hc => rw [if_neg hc]

/-! ## Stretches that meet in a star -/

namespace Stretch

def Meets (s t : Stretch) : Prop :=
  s.range.2 = '*' ∧ t.first = '*'

instance (s t : Stretch) : Decidable (s.Meets t) :=
  inferInstanceAs (Decidable (s.range.2 = '*' ∧ t.first = '*'))

def join (s t : Stretch) : Stretch :=
  ⟨s.first, s.ends ++ t.ends⟩

variable {s t : Stretch}

theorem range_join (h : s.Meets t) : (s.join t).range = (s.first, t.range.2) := by
  obtain ⟨first, ends⟩ := t
  obtain ⟨hlast, rfl⟩ := h
  refine congrArg (Prod.mk s.first) ?_
  change (s.ends ++ ends).getLastD s.first = ends.getLastD '*'
  cases ends with
  | nil => rwa [List.append_nil]
  | cons last ends => simp [List.getLastD_eq_getLast?, List.getLast?_cons]

theorem isReversed_join_iff :
    (s.join t).IsReversed ↔ s.IsReversed ∨ ∃ last ∈ t.ends, last < s.first := by
  simp only [IsReversed, join, List.mem_append, or_and_right, exists_or]

theorem first_le_last (h : ¬ s.IsReversed) : s.first ≤ s.range.2 := by
  have hmem : s.range.2 ∈ s.first :: s.ends := List.getLastD_mem_cons
  rcases List.mem_cons.mp hmem with heq | hmem
  · exact le_of_eq heq.symm
  · exact not_lt.mp fun hlt => h ⟨_, hmem, hlt⟩

theorem not_isReversed_join (h : s.Meets t) (hs : ¬ s.IsReversed) (ht : ¬ t.IsReversed) :
    ¬ (s.join t).IsReversed := by
  rw [isReversed_join_iff, not_or]
  refine ⟨hs, ?_⟩
  rintro ⟨last, hmem, hlt⟩
  have hstar : s.first ≤ t.first := by
    rw [h.2, ← h.1]
    exact first_le_last hs
  exact ht ⟨last, hmem, lt_of_lt_of_le hlt hstar⟩

end Stretch

/-- What is left of the stretches from `s` on when stars in a row are collapsed. -/
def joinStars : Stretch → List Stretch → List Stretch
  | s, [] => [s]
  | s, t :: stretches =>
    if s.Meets t then joinStars (s.join t) stretches else s :: joinStars t stretches

theorem exists_joinStars (s : Stretch) (stretches : List Stretch) :
    ∃ ends rest, joinStars s stretches = ⟨s.first, ends⟩ :: rest ∧
      ∀ u ∈ rest, ∃ t ∈ stretches, u.first = t.first := by
  induction stretches generalizing s with
  | nil => exact ⟨s.ends, [], rfl, List.forall_mem_nil _⟩
  | cons t stretches ih =>
    rw [joinStars]
    split
    · obtain ⟨ends, rest, hjoin, hrest⟩ := ih (s.join t)
      refine ⟨ends, rest, hjoin, ?_⟩
      intro u hu
      obtain ⟨v, hv, hfirst⟩ := hrest u hu
      exact ⟨v, List.mem_cons_of_mem t hv, hfirst⟩
    · obtain ⟨ends, rest, hjoin, hrest⟩ := ih t
      refine ⟨s.ends, _, rfl, ?_⟩
      rw [hjoin]
      refine List.forall_mem_cons.mpr ⟨⟨t, List.mem_cons_self, rfl⟩, ?_⟩
      intro u hu
      obtain ⟨v, hv, hfirst⟩ := hrest u hu
      exact ⟨v, List.mem_cons_of_mem t hv, hfirst⟩

/-- A stretch has no stars in a row, and the text behind it follows its last character. -/
theorem collapseStars_chars_append (s : Stretch) (cs : List Char) :
    collapseStars (s.chars ++ cs) =
      s.chars ++ if s.range.2 = '*' then afterStar cs else collapseStars cs := by
  obtain ⟨first, ends⟩ := s
  induction ends generalizing first with
  | nil =>
    change collapseStars (first :: cs) =
      first :: if first = '*' then afterStar cs else collapseStars cs
    by_cases hfirst : first = '*'
    · rw [if_pos hfirst, hfirst, collapseStars_star]
    · rw [if_neg hfirst, collapseStars_cons hfirst]
  | cons last ends ih =>
    have hdash : '-' ≠ '*' := by decide
    have hfront : collapseStars [first] = [first] := by
      by_cases hfirst : first = '*'
      · rw [hfirst, collapseStars_star, afterStar_nil]
      · rw [collapseStars_cons hfirst, collapseStars]
    have hsplit :=
      (collapseStars_append_cons hdash [first] ((Stretch.mk last ends).chars ++ cs)).1
    rw [hfront, ih last] at hsplit
    have hlast : (Stretch.mk first (last :: ends)).range.2 = (Stretch.mk last ends).range.2 :=
      List.getLastD_cons (a := first)
    rw [hlast]
    exact hsplit

theorem collapseStars_flatMap_chars (s : Stretch) (stretches : List Stretch) (dash : Bool) :
    collapseStars ((s :: stretches).flatMap Stretch.chars ++ if dash then ['-'] else []) =
      (joinStars s stretches).flatMap Stretch.chars ++ if dash then ['-'] else [] := by
  induction stretches generalizing s with
  | nil =>
    have hrest : (if s.range.2 = '*' then afterStar (if dash then ['-'] else [])
        else collapseStars (if dash then ['-'] else [])) = if dash then ['-'] else [] := by
      cases dash <;> split <;> rfl
    rw [joinStars, List.flatMap_cons, List.flatMap_nil, List.append_nil,
      collapseStars_chars_append, hrest]
  | cons t stretches ih =>
    rw [List.flatMap_cons, List.append_assoc, collapseStars_chars_append, joinStars]
    by_cases hmeets : s.Meets t
    · -- the star that `t` begins with follows another one
      have hjoin := ih (s.join t)
      have hchars : (s.join t).chars = s.chars ++ t.ends.flatMap fun last => ['-', last] := by
        simp [Stretch.join, Stretch.chars]
      have hstar : t.chars = '*' :: t.ends.flatMap fun last => ['-', last] := by
        rw [Stretch.chars, hmeets.2]
      rw [List.flatMap_cons, hchars, List.append_assoc, List.append_assoc,
        collapseStars_chars_append, if_pos hmeets.1] at hjoin
      rw [if_pos hmeets, if_pos hmeets.1, ← hjoin, List.flatMap_cons, hstar, List.append_assoc,
        List.cons_append, afterStar_star]
    · have hafter : (if s.range.2 = '*' then
          afterStar ((t :: stretches).flatMap Stretch.chars ++ if dash then ['-'] else [])
          else collapseStars
            ((t :: stretches).flatMap Stretch.chars ++ if dash then ['-'] else [])) =
          collapseStars
            ((t :: stretches).flatMap Stretch.chars ++ if dash then ['-'] else []) := by
        split
        · next hlast => exact afterStar_cons (fun hfirst => hmeets ⟨hlast, hfirst⟩) _
        · rfl
      rw [if_neg hmeets, hafter, ih t, List.flatMap_cons, List.append_assoc]

theorem areWritten_collapseStars {body : List Char} {s : Stretch} {stretches : List Stretch}
    {dash : Bool} (h : AreWritten (members body) (s :: stretches) dash) :
    AreWritten (members (collapseStars body)) (joinStars s stretches) dash := by
  obtain ⟨ends, rest, hjoin, hrest⟩ := exists_joinStars s stretches
  refine ⟨?_, ?_, ?_⟩
  · rw [(members_collapseStars body).1, h.chars]
    exact collapseStars_flatMap_chars s stretches dash
  · rw [hjoin]
    exact List.cons_ne_nil _ _
  · rw [hjoin]
    intro u hu
    obtain ⟨t, ht, hfirst⟩ := hrest u hu
    rw [hfirst]
    exact h.later t ht

theorem not_isReversed_joinStars {s : Stretch} {stretches : List Stretch}
    (h : ∀ t ∈ s :: stretches, ¬ t.IsReversed) : ∀ u ∈ joinStars s stretches, ¬ u.IsReversed := by
  induction stretches generalizing s with
  | nil => exact h
  | cons t stretches ih =>
    obtain ⟨hs, ht⟩ := List.forall_mem_cons.mp h
    rw [joinStars]
    split
    · next hmeets =>
      obtain ⟨hfirst, hrest⟩ := List.forall_mem_cons.mp ht
      exact ih (List.forall_mem_cons.mpr ⟨Stretch.not_isReversed_join hmeets hs hfirst, hrest⟩)
    · exact List.forall_mem_cons.mpr ⟨hs, ih ht⟩

/-! ## What ranges list -/

/-- A way to tell what a range lists, by its two ends, that can be told on both sides of a star. -/
def SplitsAtStar (lists : Char → Char → Prop) : Prop :=
  ∀ first last, first ≤ '*' → '*' ≤ last → (lists first last ↔ lists first '*' ∨ lists '*' last)

section Ranges

variable {lists : Char → Char → Prop} (hsplit : SplitsAtStar lists)

include hsplit

theorem lists_joinStars_iff {s : Stretch} {stretches : List Stretch}
    (h : ∀ t ∈ s :: stretches, ¬ t.IsReversed) :
    (∃ r ∈ (joinStars s stretches).map Stretch.range, lists r.1 r.2) ↔
      ∃ r ∈ (s :: stretches).map Stretch.range, lists r.1 r.2 := by
  induction stretches generalizing s with
  | nil => rfl
  | cons t stretches ih =>
    obtain ⟨hs, ht⟩ := List.forall_mem_cons.mp h
    rw [joinStars]
    split
    · next hmeets =>
      obtain ⟨hfirst, hrest⟩ := List.forall_mem_cons.mp ht
      have hjoin := Stretch.not_isReversed_join hmeets hs hfirst
      have hstart := Stretch.first_le_last hs
      have hend := Stretch.first_le_last hfirst
      rw [hmeets.1] at hstart
      rw [hmeets.2] at hend
      have hpair : lists s.first t.range.2 ↔
          lists s.range.1 s.range.2 ∨ lists t.range.1 t.range.2 := by
        have hs' : s.range.1 = s.first := rfl
        have ht' : t.range.1 = '*' := hmeets.2
        rw [hs', ht', hmeets.1]
        exact hsplit _ _ hstart hend
      rw [ih (List.forall_mem_cons.mpr ⟨hjoin, hrest⟩)]
      simp only [List.map_cons, List.mem_cons, exists_eq_or_imp, Stretch.range_join hmeets, hpair,
        or_assoc]
    · have hlater := ih ht
      simp only [List.map_cons, List.mem_cons, exists_eq_or_imp] at hlater ⊢
      rw [hlater]

theorem lists_rangesOf_joinStars_iff {s : Stretch} {stretches : List Stretch}
    (h : ∀ t ∈ s :: stretches, ¬ t.IsReversed) (dash : Bool) :
    (∃ r ∈ rangesOf (joinStars s stretches) dash, lists r.1 r.2) ↔
      ∃ r ∈ rangesOf (s :: stretches) dash, lists r.1 r.2 := by
  simp only [rangesOf, List.mem_append, or_and_right, exists_or, lists_joinStars_iff hsplit h]

end Ranges

/-- Classes that list the same, in every way to tell that can be told on both sides of a star. -/
structure ByteClass.Alike (k k' : ByteClass) : Prop where
  negated : k'.negated = k.negated
  lists : ∀ lists, SplitsAtStar lists →
    ((∃ r ∈ k'.ranges, lists r.1 r.2) ↔ ∃ r ∈ k.ranges, lists r.1 r.2)

/-- A class that can be read lists the same with its stars collapsed. -/
theorem readClass_collapseStars {body : List Char} (hbody : AreMembers (members body))
    {k : ByteClass} (h : readClass body = .ok k) :
    ∃ k', readClass (collapseStars body) = .ok k' ∧ k.Alike k' := by
  obtain ⟨stretches, dash, hwritten⟩ := exists_areWritten hbody.1
  obtain ⟨s, stretches, rfl⟩ := List.exists_cons_of_ne_nil hwritten.ne_nil
  obtain ⟨horder, rfl⟩ := (readClass_eq_ok_iff_ranges hwritten).mp h
  have hcollapsed := areWritten_collapseStars hwritten
  refine ⟨_, (readClass_eq_ok_iff_ranges hcollapsed).mpr ⟨not_isReversed_joinStars horder, rfl⟩,
    (members_collapseStars body).2, ?_⟩
  intro lists hsplit
  exact lists_rangesOf_joinStars_iff hsplit horder dash

def Lists (ranges : List (Char × Char)) (c : Char) : Prop :=
  ∃ r ∈ ranges, r.1 ≤ c ∧ c ≤ r.2

theorem lists_iff_lists {k : ByteClass} {c : Char} : k.lists c = true ↔ Lists k.ranges c := by
  simp [ByteClass.lists, Lists]

theorem between_iff {first middle last x : Nat} (hfirst : first ≤ middle) (hlast : middle ≤ last) :
    first ≤ x ∧ x ≤ last ↔ (first ≤ x ∧ x ≤ middle) ∨ (middle ≤ x ∧ x ≤ last) := by
  omega

theorem splitsAtStar_char (c : Char) : SplitsAtStar fun first last => first ≤ c ∧ c ≤ last := by
  intro first last hfirst hlast
  exact between_iff hfirst hlast

theorem ByteClass.Alike.oneOf {k k' : ByteClass} (h : k.Alike k') :
    (CharTest.oneOf k).Alike (.oneOf k') := by
  refine .oneOf h.negated ?_
  intro c
  rw [Bool.eq_iff_iff, lists_iff_lists, lists_iff_lists]
  exact h.lists _ (splitsAtStar_char c)

/-! ## Reading a segment -/

/-- A text that takes the same with its stars collapsed, also where it follows a star. -/
structure KeepsSteps (cs : List Char) (steps : List (Step CharTest)) : Prop where
  here : ∃ fewer, charSteps (parts (collapseStars cs)) = .ok fewer ∧ Collapsed steps fewer
  behind : ∃ fewer, charSteps (parts (afterStar cs)) = .ok fewer ∧
    Collapsed (.run :: steps) (.run :: fewer)

theorem keepsSteps_of_ne_star {c : Char} {cs : List Char} {steps fewer : List (Step CharTest)}
    (hc : c ≠ '*') (hread : charSteps (parts (c :: collapseStars cs)) = .ok fewer)
    (h : Collapsed steps fewer) : KeepsSteps (c :: cs) steps := by
  rw [← collapseStars_cons hc] at hread
  refine ⟨⟨fewer, hread, h⟩, fewer, ?_, .run h⟩
  rw [afterStar_cons hc]
  exact hread

theorem keepsSteps_of_charSteps (cs : List Char) :
    ∀ steps, charSteps (parts cs) = .ok steps → KeepsSteps cs steps := by
  induction cs using partsInduction with
  | nil =>
    intro steps h
    rw [parts_nil] at h
    obtain rfl := Except.ok.inj h
    exact ⟨⟨[], by rw [collapseStars, parts_nil, charSteps], .nil⟩,
      [], by rw [afterStar_nil, parts_nil, charSteps], .run .nil⟩
  | star cs ih =>
    intro steps h
    rw [parts_star] at h
    obtain ⟨here, there, hp, hps, rfl⟩ := exists_of_charSteps_cons h
    obtain rfl := Except.ok.inj hp
    obtain ⟨fewer, hfewer, hruns⟩ := (ih there hps).behind
    refine ⟨⟨.run :: fewer, ?_, hruns⟩, fewer, ?_, .again hruns⟩
    · rw [collapseStars_star, parts_star]
      exact charSteps_cons hp hfewer
    · rw [afterStar_star]
      exact hfewer
  | any cs ih =>
    intro steps h
    rw [parts_any] at h
    obtain ⟨here, there, hp, hps, rfl⟩ := exists_of_charSteps_cons h
    obtain rfl := Except.ok.inj hp
    obtain ⟨fewer, hfewer, hrest⟩ := (ih there hps).here
    refine keepsSteps_of_ne_star (by decide) ?_ (.one (.refl _) hrest)
    rw [parts_any]
    exact charSteps_cons hp hfewer
  | closed body rest hbody ih =>
    intro steps h
    rw [parts_closed hbody] at h
    obtain ⟨here, there, hp, hps, rfl⟩ := exists_of_charSteps_cons h
    obtain ⟨k, hk, rfl⟩ := charStep_closed_eq_ok_iff.mp hp
    obtain ⟨k', hk', hsame⟩ := readClass_collapseStars hbody hk
    obtain ⟨fewer, hfewer, hrest⟩ := (ih there hps).here
    refine keepsSteps_of_ne_star (by decide) ?_ (.one hsame.oneOf hrest)
    rw [(collapseStars_append_cons (by decide) body rest).1,
      parts_closed (areMembers_collapseStars hbody)]
    exact charSteps_cons (charStep_closed_eq_ok_iff.mpr ⟨k', hk', rfl⟩) hfewer
  | literal c cs hstar hany hopens ih =>
    intro steps h
    rw [parts_literal hstar hany hopens] at h
    obtain ⟨here, there, hp, hps, rfl⟩ := exists_of_charSteps_cons h
    obtain rfl := Except.ok.inj hp
    obtain ⟨fewer, hfewer, hrest⟩ := (ih there hps).here
    refine keepsSteps_of_ne_star hstar ?_ (.one (.refl _) hrest)
    rw [parts_literal hstar hany (opensClass_collapseStars hopens)]
    exact charSteps_cons hp hfewer

end Ownership.Glob
