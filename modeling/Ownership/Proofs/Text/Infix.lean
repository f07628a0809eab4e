import Mathlib.Data.List.Infix
import Ownership.Text.Basic

set_option autoImplicit false

/-!
# Texts inside texts

Where a marker can stand in a text that is put together from pieces. A marker that has no character
of a separator lies on one side of it, and one that begins and ends in characters which the text
around a piece does not have lies within the piece.
-/
namespace Ownership.Text

variable {m xs ys : List Char}

def OnlyAtStart (m text : List Char) : Prop :=
  m <+: text ∧ ∀ front back, text = front ++ m ++ back → front = []

def OnlyAtEnd (m text : List Char) : Prop :=
  m <:+ text ∧ ∀ front back, text = front ++ m ++ back → back = []

/-! ## Pieces side by side -/

theorem infix_append_cons_iff {c : Char} (hm : m ≠ []) (hc : c ∉ m) :
    m <:+: xs ++ c :: ys ↔ m <:+: xs ∨ m <:+: ys := by
  have hstart {part : List Char} (hpart : part ≠ []) (h : part <+: c :: ys) : c ∈ part := by
    obtain ⟨d, part, rfl⟩ := List.exists_cons_of_ne_nil hpart
    obtain ⟨rfl, -⟩ := List.cons_prefix_cons.mp h
    exact List.mem_cons_self
  constructor
  · rw [List.infix_append_iff, List.infix_cons_iff]
    rintro (h | (h | h) | ⟨front, back, rfl, hfront, hback⟩)
    · exact .inl h
    · exact absurd (hstart hm h) hc
    · exact .inr h
    · by_cases hnil : back = []
      · rw [hnil, List.append_nil]
        exact .inl hfront.isInfix
      · exact absurd (List.mem_append_right front (hstart hnil hback)) hc
  · rintro (h | h)
    · exact h.trans (List.prefix_append xs _).isInfix
    · exact h.trans ((List.suffix_cons c ys).trans (List.suffix_append xs _)).isInfix

theorem infix_append_of_head {c : Char} (hhead : m.head? = some c) (hc : c ∉ xs) :
    m <:+: xs ++ ys ↔ m <:+: ys := by
  refine ⟨?_, fun h => h.trans (List.suffix_append xs ys).isInfix⟩
  rw [List.infix_append_iff]
  rintro (h | h | ⟨front, back, rfl, hfront, hback⟩)
  · exact absurd (h.subset (List.mem_of_mem_head? hhead)) hc
  · exact h
  · cases front with
    | nil => exact hback.isInfix
    | cons d front =>
      cases hhead
      exact absurd (hfront.subset List.mem_cons_self) hc

theorem infix_append_of_last {c : Char} (hlast : m.getLast? = some c) (hc : c ∉ ys) :
    m <:+: xs ++ ys ↔ m <:+: xs := by
  rw [← List.reverse_infix, List.reverse_append, infix_append_of_head (c := c), List.reverse_infix]
  · rw [List.head?_reverse, hlast]
  · rwa [List.mem_reverse]

/-! ## Alone at an end -/

theorem onlyAtStart_iff {c : Char} (hm : m ≠ []) (hc : c ∉ m) :
    OnlyAtStart m (m ++ c :: ys) ↔ ¬ m <:+: ys := by
  constructor
  · rintro ⟨-, honly⟩ ⟨front, back, hys⟩
    have hfront := honly (m ++ c :: front) back (by simp [← hys])
    simp at hfront
  · intro hnot
    refine ⟨List.prefix_append _ _, ?_⟩
    intro front back htext
    by_contra hne
    obtain ⟨d, rest, hmarker⟩ := List.exists_cons_of_ne_nil hm
    obtain ⟨e, front, rfl⟩ := List.exists_cons_of_ne_nil hne
    have hlater : m <:+: rest ++ c :: ys := by
      refine ⟨front, back, ?_⟩
      rw [hmarker] at htext ⊢
      exact (List.cons.inj htext).2.symm
    rcases (infix_append_cons_iff hm hc).mp hlater with h | h
    · have hlength := h.length_le
      rw [hmarker, List.length_cons] at hlength
      omega
    · exact hnot h

theorem onlyAtEnd_iff_reverse : OnlyAtEnd m xs ↔ OnlyAtStart m.reverse xs.reverse := by
  rw [OnlyAtEnd, OnlyAtStart, List.reverse_prefix]
  refine and_congr_right fun _ => ?_
  constructor
  · intro h front back htext
    rw [List.reverse_eq_iff] at htext
    have hback := h back.reverse front.reverse (by simpa using htext)
    exact List.reverse_eq_nil_iff.mp hback
  · intro h front back htext
    have hback := h back.reverse front.reverse (by simp [htext])
    exact List.reverse_eq_nil_iff.mp hback

theorem onlyAtEnd_iff {c : Char} (hm : m ≠ []) (hc : c ∉ m) :
    OnlyAtEnd m (xs ++ c :: m) ↔ ¬ m <:+: xs := by
  have htext : (xs ++ c :: m).reverse = m.reverse ++ c :: xs.reverse := by simp
  rw [onlyAtEnd_iff_reverse, htext, onlyAtStart_iff (mt List.reverse_eq_nil_iff.mp hm)
    (mt List.mem_reverse.mp hc), List.reverse_infix]

/-! ## Pieces with separators between them -/

/-- No occurrence of the marker reaches into the separator. -/
def Cuts (sep m : List Char) : Prop :=
  ∀ xs ys, m <:+: xs ++ sep ++ ys ↔ m <:+: xs ∨ m <:+: ys

theorem cuts_of_ends {sep : List Char} {first last c : Char} (hhead : m.head? = some first)
    (hlast : m.getLast? = some last) (hfirst : first ∉ sep) (hend : last ∉ sep) (hsep : c ∈ sep)
    (hc : c ∉ m) : Cuts sep m := by
  intro xs ys
  obtain ⟨before, after, rfl⟩ := List.append_of_mem hsep
  have hm : m ≠ [] := by
    rintro rfl
    cases hhead
  simp only [List.mem_append, List.mem_cons, not_or] at hfirst hend
  have htext : xs ++ (before ++ c :: after) ++ ys = xs ++ before ++ c :: (after ++ ys) := by simp
  rw [htext, infix_append_cons_iff hm hc, infix_append_of_last hlast hend.1,
    infix_append_of_head hhead hfirst.2.2]

theorem Cuts.infix_intercalate_iff {sep : String} (hcuts : Cuts sep.toList m) (hm : m ≠ [])
    {pieces : List String} :
    m <:+: (sep.intercalate pieces).toList ↔ ∃ piece ∈ pieces, m <:+: piece.toList := by
  induction pieces with
  | nil =>
    refine iff_of_false ?_ nofun
    exact fun h => hm (List.eq_nil_of_infix_nil h)
  | cons piece pieces ih =>
    cases pieces with
    | nil => simp
    | cons next pieces =>
      rw [String.intercalate_cons_cons, String.toList_append, String.toList_append, hcuts, ih]
      simp only [List.mem_cons, exists_eq_or_imp]

end Ownership.Text
