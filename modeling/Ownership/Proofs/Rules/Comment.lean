import Mathlib.Algebra.Group.Nat.Even
import Mathlib.Data.List.Infix
import Ownership.Proofs.Rules.Line

set_option autoImplicit false

/-!
# Where a comment begins

A quoted span opens at a quote and ends at the next quote of the same kind. A comment begins at the
first `#` that starts a word outside of all spans. The reader of lines only counts quotes, so it
finds that `#` unless an odd number of quotes inside spans, of the other kind, is in front of one.
-/
namespace Ownership.Rules
open Text

def isQuote (c : Char) : Bool := c = '\'' || c = '"'

/-- The quote that is waited for after one more character. -/
def spanStep (span : Option Char) (c : Char) : Option Char :=
  match span with
  | none => if isQuote c then some c else none
  | some q => if c = q then none else some q

def openSpan (span : Option Char) (cs : List Char) : Option Char :=
  cs.foldl spanStep span

/-- How many quotes stand in spans that the other kind of quote opened. -/
def innerQuotes (span : Option Char) : List Char → Nat
  | [] => 0
  | c :: cs =>
    let here := if isQuote c && span.any (· != c) then 1 else 0
    innerQuotes (spanStep span c) cs + here

def startsWord (afterBlank : Bool) (front : List Char) : Bool :=
  front.getLast?.elim afterBlank isBlank

/-- The text before the first `#` that `begins` tells to begin a comment, or the whole line. -/
def textBefore (begins : List Char → Bool) (line : List Char) : List Char :=
  (line.inits.find? fun front => begins front && (front ++ ['#']).isPrefixOf line).getD line

def uncommented (line : List Char) : List Char :=
  textBefore (fun front => (openSpan none front).isNone && startsWord true front) line

/-! ## The first `#` of a kind -/

theorem textBefore_nil (begins : List Char → Bool) : textBefore begins [] = [] := by
  unfold textBefore
  cases h : List.find? _ [].inits with
  | none => rfl
  | some front => exact List.prefix_nil.mp ((List.mem_inits _ _).mp (List.mem_of_find?_eq_some h))

theorem textBefore_cons (begins : List Char → Bool) (c : Char) (cs : List Char) :
    textBefore begins (c :: cs) =
      if c = '#' && begins [] then []
      else c :: textBefore (fun front => begins (c :: front)) cs := by
  have hlater : (fun front => begins front && (front ++ ['#']).isPrefixOf (c :: cs)) ∘ (c :: ·) =
      fun front => begins (c :: front) && (front ++ ['#']).isPrefixOf cs := by
    funext front
    simp
  have hhere : (begins [] && ([] ++ ['#']).isPrefixOf (c :: cs)) =
      (decide (c = '#') && begins []) := by
    rw [List.nil_append, List.isPrefixOf_cons_cons, List.isPrefixOf_nil_left, Bool.and_true,
      Bool.beq_comm, Bool.and_comm]
    rfl
  rw [textBefore, List.inits_cons, List.find?_cons, hhere]
  cases decide (c = '#') && begins [] with
  | true => rfl
  | false =>
    dsimp only
    rw [List.find?_map, hlater, Option.getD_map]
    rfl

theorem forall_hash_cons_iff {holds : List Char → Prop} {c : Char} {cs : List Char} :
    (∀ front, front ++ ['#'] <+: c :: cs → holds front) ↔
      (c = '#' → holds []) ∧ ∀ front, front ++ ['#'] <+: cs → holds (c :: front) := by
  constructor
  · intro h
    refine ⟨?_, fun front hfront => h (c :: front) (List.cons_prefix_cons.mpr ⟨rfl, hfront⟩)⟩
    rintro rfl
    exact h [] (List.cons_prefix_cons.mpr ⟨rfl, List.nil_prefix⟩)
  · rintro ⟨hhere, hlater⟩ front hfront
    cases front with
    | nil => exact hhere (List.cons_prefix_cons.mp hfront).1.symm
    | cons d front =>
      obtain ⟨rfl, hrest⟩ := List.cons_prefix_cons.mp hfront
      exact hlater front hrest

/-- Two ways to tell a comment cut a line at the same place when they agree up to there. -/
theorem textBefore_eq_iff {first second : List Char → Bool} {line : List Char} :
    textBefore first line = textBefore second line ↔
      ∀ front, front ++ ['#'] <+: line → front <+: textBefore first line →
        first front = second front := by
  induction line generalizing first second with
  | nil =>
    rw [textBefore_nil, textBefore_nil]
    refine iff_of_true rfl ?_
    intro front hfront
    exact absurd (List.prefix_nil.mp hfront) (List.append_ne_nil_of_right_ne_nil _ nofun)
  | cons c cs ih =>
    rw [textBefore_cons, textBefore_cons, forall_hash_cons_iff]
    by_cases hc : c = '#'
    · cases hfirst : first [] <;> cases hsecond : second [] <;>
        simp [hc, ih, List.cons_prefix_cons]
    · simp [hc, ih, List.cons_prefix_cons]

/-! ## The reader counts quotes -/

theorem startsWord_cons (afterBlank : Bool) (c : Char) (front : List Char) :
    startsWord afterBlank (c :: front) = startsWord (isBlank c) front := by
  cases front with
  | nil => rfl
  | cons d front => rw [startsWord, startsWord, List.getLast?_cons_cons]; rfl

theorem stripCommentFrom_eq_textBefore (quoted afterBlank : Bool) (cs : List Char) :
    stripCommentFrom quoted afterBlank cs =
      textBefore (fun front => !quotedAfter quoted front && startsWord afterBlank front) cs := by
  induction cs generalizing quoted afterBlank with
  | nil => rw [textBefore_nil, stripCommentFrom]
  | cons c cs ih =>
    rw [textBefore_cons, stripCommentFrom, ih, Bool.and_assoc]
    simp only [startsWord_cons]
    rfl

theorem quotedAfter_cons (quoted : Bool) (c : Char) (cs : List Char) :
    quotedAfter quoted (c :: cs) = quotedAfter (if isQuote c then !quoted else quoted) cs := rfl

theorem quotedAfter_not (quoted : Bool) (cs : List Char) :
    quotedAfter (!quoted) cs = !quotedAfter quoted cs := by
  induction cs generalizing quoted with
  | nil => rfl
  | cons c cs ih =>
    rw [quotedAfter_cons, quotedAfter_cons, ← ih]
    split <;> rfl

/-- Counting all quotes tells whether a span is open when those inside of spans are even. -/
theorem quotedAfter_eq_isSome_iff (span : Option Char) (h : span.all isQuote = true)
    (cs : List Char) :
    quotedAfter span.isSome cs = (openSpan span cs).isSome ↔ Even (innerQuotes span cs) := by
  induction cs generalizing span with
  | nil => exact iff_of_true rfl Even.zero
  | cons c cs ih =>
    have hspan : openSpan span (c :: cs) = openSpan (spanStep span c) cs := rfl
    rw [quotedAfter_cons, hspan, innerQuotes]
    cases hquote : isQuote c with
    | false =>
      have hstays : spanStep span c = span := by
        cases span with
        | none => exact if_neg (Bool.eq_false_iff.mp hquote)
        | some q =>
          refine if_neg ?_
          rintro rfl
          exact Bool.noConfusion (hquote.symm.trans h)
      rw [hstays]
      exact ih span h
    | true =>
      cases span with
      | none =>
        have hopens : spanStep none c = some c := if_pos hquote
        rw [hopens]
        exact ih (some c) hquote
      | some q =>
        by_cases hclose : c = q
        · have hcloses : spanStep (some q) c = none := if_pos hclose
          have hsame : (some q).any (· != c) = false := by simp [hclose]
          rw [hcloses, hsame]
          exact ih none rfl
        · -- a quote of the other kind turns the count and leaves the span open
          have hstays : spanStep (some q) c = some q := if_neg hclose
          have hother : (some q).any (· != c) = true := by simpa using Ne.symm hclose
          rw [hstays, hother]
          change quotedAfter (!true) cs = _ ↔ Even (innerQuotes (some q) cs + 1)
          rw [Nat.even_add_one, ← ih (some q) h, quotedAfter_not, Option.isSome_some]
          cases quotedAfter true cs <;> cases (openSpan (some q) cs).isSome <;> decide

/-- The reader drops the comment of a line, and nothing else, exactly when every `#` that starts a
word up to the comment has an even number of inner quotes before it. -/
theorem stripComment_eq_uncommented_iff (line : List Char) :
    stripComment line = uncommented line ↔
      ∀ front, front ++ ['#'] <+: line → startsWord true front = true →
        front <+: uncommented line → Even (innerQuotes none front) := by
  rw [stripComment, stripCommentFrom_eq_textBefore, eq_comm, uncommented, textBefore_eq_iff]
  refine forall₂_congr fun front _ => ?_
  have hnone : (openSpan none front).isNone = !(openSpan none front).isSome :=
    (Option.not_isSome _).symm
  have hcount : quotedAfter false front = (openSpan none front).isSome ↔
      Even (innerQuotes none front) := quotedAfter_eq_isSome_iff none rfl front
  rw [← hcount, hnone]
  cases startsWord true front with
  | false => simp
  | true => cases quotedAfter false front <;> cases (openSpan none front).isSome <;> simp

/-- An apostrophe within double quotes: the comment behind them is kept, and a `#` inside of them
begins one. -/
theorem stripComment_ne_uncommented_apostrophe :
    (openSpan none "\"it's\"/** docs # all".toList = none ∧
      uncommented "\"it's\"/** docs # all".toList = "\"it's\"/** docs ".toList ∧
      stripComment "\"it's\"/** docs # all".toList = "\"it's\"/** docs # all".toList) ∧
    openSpan none "\"it's #1\"".toList = none ∧
      uncommented "\"it's #1\"".toList = "\"it's #1\"".toList ∧
      stripComment "\"it's #1\"".toList = "\"it's ".toList := by
  decide +kernel

end Ownership.Rules
