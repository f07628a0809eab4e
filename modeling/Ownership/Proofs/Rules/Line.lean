import Ownership.Proofs.Text.Pieces
import Ownership.Rules

set_option autoImplicit false

/-!
# Reading one line of a rules file

A comment can only begin where a word does. So a line of two words is read whole, unless one of
them begins with `#` while no quoted span is open.
-/
namespace Ownership

open Text

theorem Rule.exists_of_compile {pattern : String} {compiled : Pattern}
    (h : Pattern.compile pattern = .ok compiled) (service : String) (line : Option Nat) :
    ∃ r : Rule, Rule.ofPattern pattern service line = .ok r ∧
      r.pattern = pattern ∧ r.service = service ∧ r.line = line := by
  unfold Rule.ofPattern
  split
  · exact ⟨_, rfl, rfl, rfl, rfl⟩
  · next e he => cases h.symm.trans he

theorem Rule.line_ofPattern {pattern service : String} {line : Option Nat} {rule : Rule}
    (h : Rule.ofPattern pattern service line = .ok rule) : rule.line = line := by
  unfold Rule.ofPattern at h
  split at h
  · cases h
    rfl
  · cases h

namespace Rules

/-- Whether a quoted span is open at the end of a text. -/
def quotedAfter (quoted : Bool) (cs : List Char) : Bool :=
  cs.foldl (fun quoted c => if c = '\'' || c = '"' then !quoted else quoted) quoted

def OpensComment (quoted : Bool) (word : List Char) : Prop :=
  quoted = false ∧ word.head? = some '#'

instance (quoted : Bool) (word : List Char) : Decidable (OpensComment quoted word) :=
  inferInstanceAs (Decidable (_ ∧ _))

theorem stripCommentFrom_cons_nonblank (quoted : Bool) {c : Char} (h : isBlank c = false)
    (cs : List Char) :
    stripCommentFrom quoted false (c :: cs) =
      c :: stripCommentFrom (quotedAfter quoted [c]) false cs := by
  rw [stripCommentFrom, Bool.and_false, h]
  rfl

theorem stripCommentFrom_append (quoted : Bool) {cs : List Char}
    (h : ∀ c ∈ cs, isBlank c = false) (rest : List Char) :
    stripCommentFrom quoted false (cs ++ rest) =
      cs ++ stripCommentFrom (quotedAfter quoted cs) false rest := by
  induction cs generalizing quoted with
  | nil => rfl
  | cons c cs ih =>
    obtain ⟨hc, hcs⟩ := List.forall_mem_cons.mp h
    rw [List.cons_append, stripCommentFrom_cons_nonblank quoted hc, ih _ hcs]
    rfl

theorem stripCommentFrom_word {quoted : Bool} {word : List Char} (h : IsWord word)
    (hopens : ¬ OpensComment quoted word) (rest : List Char) :
    stripCommentFrom quoted true (word ++ rest) =
      word ++ stripCommentFrom (quotedAfter quoted word) false rest := by
  obtain ⟨c, cs, rfl⟩ := List.exists_cons_of_ne_nil h.ne_nil
  obtain ⟨hc, hcs⟩ := List.forall_mem_cons.mp h.nonblank
  have hkept : (c = '#' && !quoted && true) = false := by
    rw [Bool.and_true, Bool.and_eq_false_iff]
    by_cases hhash : c = '#'
    · right
      cases quoted with
      | true => rfl
      | false => exact absurd ⟨rfl, congrArg some hhash⟩ hopens
    · left
      exact decide_eq_false hhash
  rw [List.cons_append, stripCommentFrom, hkept, hc]
  exact congrArg (c :: ·) (stripCommentFrom_append _ hcs rest)

theorem stripCommentFrom_cons_blank (quoted afterBlank : Bool) {blank : Char}
    (h : isBlank blank = true) (cs : List Char) :
    stripCommentFrom quoted afterBlank (blank :: cs) =
      blank :: stripCommentFrom quoted true cs := by
  have hne {c : Char} (hc : isBlank c = false) : decide (blank = c) = false :=
    decide_eq_false fun heq => Bool.noConfusion ((heq ▸ h).symm.trans hc)
  rw [stripCommentFrom, h, hne (by decide), hne (by decide), hne (by decide)]
  rfl

theorem stripCommentFrom_append_of_blank (quoted : Bool) {margin : List Char}
    (h : ∀ c ∈ margin, isBlank c = true) (cs : List Char) :
    stripCommentFrom quoted true (margin ++ cs) = margin ++ stripCommentFrom quoted true cs := by
  induction margin with
  | nil => rfl
  | cons c margin ih =>
    obtain ⟨hc, hmargin⟩ := List.forall_mem_cons.mp h
    rw [List.cons_append, stripCommentFrom_cons_blank _ _ hc, ih hmargin]
    rfl

theorem stripCommentFrom_of_blank (quoted afterBlank : Bool) {margin : List Char}
    (h : ∀ c ∈ margin, isBlank c = true) :
    stripCommentFrom quoted afterBlank margin = margin := by
  cases margin with
  | nil => rfl
  | cons c margin =>
    obtain ⟨hc, hmargin⟩ := List.forall_mem_cons.mp h
    have hrest := stripCommentFrom_append_of_blank quoted hmargin []
    rw [List.append_nil, stripCommentFrom, List.append_nil] at hrest
    rw [stripCommentFrom_cons_blank _ _ hc, hrest]

/-- A blank at the end of a line is part of its comment, or the last of what is before it. -/
theorem stripCommentFrom_concat_blank (quoted afterBlank : Bool) {blank : Char}
    (h : isBlank blank = true) (cs : List Char) :
    stripCommentFrom quoted afterBlank (cs ++ [blank]) = stripCommentFrom quoted afterBlank cs ∨
      stripCommentFrom quoted afterBlank (cs ++ [blank]) =
        stripCommentFrom quoted afterBlank cs ++ [blank] := by
  induction cs generalizing quoted afterBlank with
  | nil =>
    right
    exact stripCommentFrom_cons_blank quoted afterBlank h []
  | cons c cs ih =>
    rw [List.cons_append, stripCommentFrom, stripCommentFrom]
    split
    · left
      rfl
    · exact (ih _ _).imp (congrArg (c :: ·)) (congrArg (c :: ·))

theorem columns_stripComment_dropReturn (raw : List Char) :
    columns (stripComment (dropReturn raw)) = columns (stripComment raw) := by
  by_cases hlast : raw.getLast? = some '\r'
  · obtain ⟨cs, rfl⟩ := List.getLast?_eq_some_iff.mp hlast
    have hreturn : isBlank '\r' = true := by decide
    rw [dropReturn_concat]
    rcases stripCommentFrom_concat_blank false true hreturn cs with h | h
    · exact congrArg columns h.symm
    · exact ((congrArg columns h).trans (columns_concat_blank hreturn _)).symm
  · rw [dropReturn_eq_self hlast]

theorem columns_stripComment_comment {margin : List Char} (h : ∀ c ∈ margin, isBlank c = true)
    (cs : List Char) : columns (stripComment (margin ++ '#' :: cs)) = [] := by
  rw [stripComment, stripCommentFrom_append_of_blank false h]
  exact (columns_append_of_blank h []).trans rfl

theorem readLine_of_pair {raw pattern service : List Char}
    (h : columns (stripComment raw) = [pattern, service]) (source : String) (number : Nat) :
    readLine source number raw =
      some ((Rule.ofPattern (String.ofList pattern) (String.ofList service)
        (some number)).mapError fun e => ⟨source, number, .pattern e⟩) := by
  unfold readLine
  rw [h]
  dsimp only
  cases Rule.ofPattern (String.ofList pattern) (String.ofList service) (some number) <;> rfl

theorem readLine_of_no_columns {raw : List Char} (h : columns (stripComment raw) = [])
    (source : String) (number : Nat) : readLine source number raw = none := by
  unfold readLine
  rw [h]

section Pair

variable {pattern service : List Char} (hpattern : IsWord pattern) (hservice : IsWord service)
  (hkept : ¬ OpensComment false pattern)
  (hshown : ¬ OpensComment (quotedAfter false pattern) service) {blank : Char}
  (hblank : isBlank blank = true)
include hpattern hservice hkept hshown hblank

theorem columns_stripComment_pair {indent gap ending : List Char}
    (hindent : ∀ c ∈ indent, isBlank c = true) (hgap : ∀ c ∈ gap, isBlank c = true)
    (hending : ∀ c ∈ ending, isBlank c = true) :
    columns (stripComment (indent ++ (pattern ++ blank :: (gap ++ (service ++ ending))))) =
      [pattern, service] := by
  have hkeeps : stripComment (indent ++ (pattern ++ blank :: (gap ++ (service ++ ending)))) =
      indent ++ (pattern ++ blank :: (gap ++ (service ++ ending))) := by
    rw [stripComment, stripCommentFrom_append_of_blank false hindent,
      stripCommentFrom_word hpattern hkept, stripCommentFrom_cons_blank _ _ hblank,
      stripCommentFrom_append_of_blank _ hgap, stripCommentFrom_word hservice hshown,
      stripCommentFrom_of_blank _ _ hending]
  rw [hkeeps, columns_append_of_blank hindent, hpattern.columns_append_cons hblank,
    columns_append_of_blank hgap, hservice.columns_append_of_blank hending]

theorem readLine_pair (source : String) (number : Nat) :
    readLine source number (pattern ++ blank :: service) =
      some ((Rule.ofPattern (String.ofList pattern) (String.ofList service)
        (some number)).mapError fun e => ⟨source, number, .pattern e⟩) := by
  have hnil : ∀ c ∈ ([] : List Char), isBlank c = true := List.forall_mem_nil _
  have hcolumns := columns_stripComment_pair hpattern hservice hkept hshown hblank hnil hnil hnil
  rw [List.nil_append, List.nil_append, List.append_nil] at hcolumns
  exact readLine_of_pair hcolumns source number

end Pair

theorem readLine_comment (source : String) (number : Nat) (cs : List Char) :
    readLine source number ('#' :: cs) = none := rfl

theorem firstError_map_ok {ε α : Type} (values : List α) :
    firstError (values.map (Except.ok : α → Except ε α)) = .ok values := by
  induction values with
  | nil => rfl
  | cons value values ih => rw [List.map_cons, firstError, ih, Except.map]

end Rules

end Ownership
