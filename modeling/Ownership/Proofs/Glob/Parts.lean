import Ownership.Proofs.Glob.Class

set_option autoImplicit false

/-!
# The parts of a wildcard segment

A wildcard segment is a sequence of stars, question marks, closed classes and literal characters.
Its escaped text spells these parts one after the other, so reading glob text gives one sequence of
steps, part by part.
-/
namespace Ownership.Glob
open Ownership.Wild

inductive Part where
  | star
  | any
  | closed (body : List Char)
  | literal (c : Char)

def opensClass (c : Char) (cs : List Char) : Option Nat :=
  if c = '[' then classLength cs else none

def parts : List Char → List Part
  | [] => []
  | c :: cs =>
    if c = '*' then .star :: parts cs
    else if c = '?' then .any :: parts cs
    else match opensClass c cs with
      | some n => .closed (cs.take (n - 1)) :: parts (cs.drop n)
      | none => .literal c :: parts cs
termination_by cs => cs.length

def isEscaped (c : Char) : Bool := c = '{' || c = '}' || c = ',' || c = '['

namespace Part

def text : Part → List Char
  | .star => ['*']
  | .any => ['?']
  | .closed body => '[' :: (body ++ [']'])
  | .literal c => if isEscaped c then ['[', c, ']'] else [c]

/-- What a part takes; fails when a class has a range that is reversed. -/
def steps : Part → Except GlobError (List (Step ByteTest))
  | .star => .ok [.run]
  | .any => .ok [.one .any]
  | .closed body => (readClass body).map fun k => [.one (.oneOf k)]
  | .literal c =>
    if isEscaped c then .ok [.one (.oneOf ⟨false, [(c, c)]⟩)]
    else .ok ((Text.bytes [c]).map fun b => .one (.byte b))

/-- A part as `parts` gives it: classes are closed, and literals are no stars. -/
def WellFormed : Part → Prop
  | .closed body => AreMembers (members body)
  | .literal c => c ≠ '*' ∧ c ≠ '?'
  | _ => True

end Part

def readParts : List Part → Except GlobError (List (Step ByteTest))
  | [] => .ok []
  | p :: ps => do return (← p.steps) ++ (← readParts ps)

theorem readParts_cons {p : Part} {ps : List Part} {here there : List (Step ByteTest)}
    (hp : p.steps = .ok here) (hps : readParts ps = .ok there) :
    readParts (p :: ps) = .ok (here ++ there) := by
  rw [readParts, hp, hps]
  rfl

theorem exists_of_readParts_cons {p : Part} {ps : List Part} {ss : List (Step ByteTest)}
    (h : readParts (p :: ps) = .ok ss) :
    ∃ here there, p.steps = .ok here ∧ readParts ps = .ok there ∧ ss = here ++ there := by
  rw [readParts] at h
  cases hp : p.steps with
  | error e => simp [hp, bind, Except.bind] at h
  | ok here =>
    cases hps : readParts ps with
    | error e => simp [hp, hps, bind, Except.bind] at h
    | ok there =>
      refine ⟨here, there, rfl, rfl, ?_⟩
      simpa [hp, hps, bind, Except.bind, pure, Except.pure, eq_comm] using h

theorem exists_steps_literal (c : Char) : ∃ block, (Part.literal c).steps = .ok block := by
  rw [Part.steps]
  split
  · exact ⟨_, rfl⟩
  · exact ⟨_, rfl⟩

theorem parts_nil : parts [] = [] := by rw [parts]

theorem parts_star (cs : List Char) : parts ('*' :: cs) = .star :: parts cs := by
  rw [parts, if_pos rfl]

theorem parts_any (cs : List Char) : parts ('?' :: cs) = .any :: parts cs := by
  rw [parts, if_neg (by decide), if_pos rfl]

theorem parts_closed {body : List Char} (h : AreMembers (members body)) (rest : List Char) :
    parts ('[' :: (body ++ ']' :: rest)) = .closed body :: parts rest := by
  have hopens : opensClass '[' (body ++ ']' :: rest) = some (body.length + 1) := by
    rw [opensClass, if_pos rfl]
    exact classLength_append h rest
  rw [parts, if_neg (by decide), if_neg (by decide), hopens]
  simp

theorem parts_literal {c : Char} {cs : List Char} (hstar : c ≠ '*') (hany : c ≠ '?')
    (hopens : opensClass c cs = none) : parts (c :: cs) = .literal c :: parts cs := by
  rw [parts, if_neg hstar, if_neg hany, hopens]

theorem partsInduction {motive : List Char → Prop} (nil : motive [])
    (star : ∀ cs, motive cs → motive ('*' :: cs))
    (any : ∀ cs, motive cs → motive ('?' :: cs))
    (closed : ∀ body rest, AreMembers (members body) → motive rest →
      motive ('[' :: (body ++ ']' :: rest)))
    (literal : ∀ c cs, c ≠ '*' → c ≠ '?' → opensClass c cs = none → motive cs → motive (c :: cs))
    (cs : List Char) : motive cs := by
  fun_induction parts cs with
  | case1 => exact nil
  | case2 cs ih => exact star cs ih
  | case3 cs _ ih => exact any cs ih
  | case4 c cs _ _ n hn ih =>
    unfold opensClass at hn
    split at hn
    · rename_i hc
      subst hc
      obtain ⟨body, rest, rfl, hbody, rfl⟩ := exists_body hn
      have hdrop : (body ++ ']' :: rest).drop (body.length + 1) = rest := by simp
      rw [hdrop] at ih
      exact closed body rest hbody ih
    · cases hn
  | case5 c cs hstar hany hopens ih => exact literal c cs hstar hany hopens ih

theorem wellFormed_of_mem_parts (cs : List Char) : ∀ p ∈ parts cs, p.WellFormed := by
  induction cs using partsInduction with
  | nil => simp [parts_nil]
  | star cs ih => simpa [parts_star, Part.WellFormed] using ih
  | any cs ih => simpa [parts_any, Part.WellFormed] using ih
  | closed body rest hbody ih =>
    rw [parts_closed hbody]
    exact List.forall_mem_cons.mpr ⟨hbody, ih⟩
  | literal c cs hstar hany hopens ih =>
    rw [parts_literal hstar hany hopens]
    exact List.forall_mem_cons.mpr ⟨⟨hstar, hany⟩, ih⟩

theorem escapeFrom_append (xs ys : List Char) :
    escapeFrom xs.length (xs ++ ys) = xs ++ escape ys := by
  induction xs with
  | nil => rfl
  | cons x xs ih => simp [escapeFrom, ih]

theorem escape_eq_flatMap (cs : List Char) : escape cs = (parts cs).flatMap Part.text := by
  induction cs using partsInduction with
  | nil => simp [parts_nil, escape, escapeFrom]
  | star cs ih => simp [parts_star, ← ih, escape, escapeFrom, Part.text]
  | any cs ih => simp [parts_any, ← ih, escape, escapeFrom, Part.text]
  | closed body rest hbody ih =>
    have hverbatim := escapeFrom_append (body ++ [']']) rest
    rw [List.append_assoc, List.length_append, ih] at hverbatim
    simp only [escape, escapeFrom, classLength_append hbody, parts_closed hbody,
      List.flatMap_cons, Part.text, List.cons_append]
    exact congrArg _ hverbatim
  | literal c cs hstar hany hopens ih =>
    rw [parts_literal hstar hany hopens, List.flatMap_cons, ← ih]
    by_cases hbracket : c = '['
    · subst hbracket
      have hnone : classLength cs = none := by simpa [opensClass] using hopens
      simp [escape, escapeFrom, hnone, Part.text, isEscaped]
    · simp only [escape, escapeFrom, Part.text, isEscaped]
      split <;> simp_all

theorem isEscaped_iff {c : Char} :
    isEscaped c = true ↔ c = '{' ∨ c = '}' ∨ c = ',' ∨ c = '[' := by
  simp [isEscaped, or_assoc]

theorem readClass_escaped {c : Char} (h : isEscaped c = true) :
    AreMembers (members [c]) ∧ readClass [c] = .ok ⟨false, [(c, c)]⟩ := by
  rcases isEscaped_iff.mp h with rfl | rfl | rfl | rfl <;>
    exact ⟨⟨by decide, by decide⟩, rfl⟩

theorem plainTokens_literal {c : Char} (hstar : c ≠ '*') (hany : c ≠ '?')
    (h : isEscaped c = false) : plainTokens c = literalTokens c := by
  unfold plainTokens
  split <;> simp_all [isEscaped]

theorem tokens_bracket (cs : List Char) : tokens .outside ('[' :: cs) = tokens .opening cs := by
  rw [tokens]

theorem tokens_plain {c : Char} (h : c ≠ '[') (cs : List Char) :
    tokens .outside (c :: cs) = (tokens .outside cs).map (plainTokens c ++ ·) := by
  rw [tokens]
  exact h

theorem tokens_text {p : Part} (h : p.WellFormed) (rest : List Char) :
    tokens .outside (p.text ++ rest) =
      p.steps >>= fun ss => (tokens .outside rest).map (ss.map .step ++ ·) := by
  cases p with
  | star => rfl
  | any => rfl
  | closed body =>
    have hopening := tokens_opening h rest
    simp only [Part.text, Part.steps, List.cons_append, List.append_assoc, List.nil_append,
      tokens_bracket, hopening]
    cases readClass body <;> rfl
  | literal c =>
    cases hc : isEscaped c with
    | true =>
      obtain ⟨hmembers, hread⟩ := readClass_escaped hc
      have hopening := tokens_opening hmembers rest
      simp only [List.cons_append, List.nil_append, hread] at hopening
      simp only [Part.text, Part.steps, hc, if_true, List.cons_append, List.nil_append,
        tokens_bracket, hopening]
      rfl
    | false =>
      have hbracket : c ≠ '[' := by
        rintro rfl
        exact absurd hc (by decide)
      simp only [Part.text, Part.steps, hc, Bool.false_eq_true, if_false, List.cons_append,
        List.nil_append, tokens_plain hbracket, plainTokens_literal h.1 h.2 hc, literalTokens]
      simp only [bind, Except.bind, List.map_map]
      rfl

theorem tokens_flatMap_text {ps : List Part} (h : ∀ p ∈ ps, p.WellFormed) :
    tokens .outside (ps.flatMap Part.text) = (readParts ps).map (·.map .step) := by
  induction ps with
  | nil => rfl
  | cons p ps ih =>
    rw [List.forall_mem_cons] at h
    rw [List.flatMap_cons, tokens_text h.1, ih h.2, readParts]
    cases p.steps with
    | error e => rfl
    | ok here =>
      cases readParts ps with
      | error e => rfl
      | ok there => simp [Except.map, bind, Except.bind, pure, Except.pure]

/-- Without groups there is one sequence of steps to spell out. -/
theorem spell_steps (before : List (List (Step ByteTest))) (branch ss : List (Step ByteTest)) :
    spell ⟨before, [branch]⟩ [] (ss.map .step) = .ok [branch.reverse ++ ss] := by
  induction ss generalizing branch with
  | nil => simp [spell]
  | cons s ss ih => simp [spell, ih]

/-- A wildcard segment is read part by part. -/
theorem readGlob_escape (cs : List Char) :
    readGlob (escape cs) = (readParts (parts cs)).map ([·]) := by
  rw [readGlob, escape_eq_flatMap, tokens_flatMap_text (wellFormed_of_mem_parts cs)]
  cases readParts (parts cs) with
  | error e => rfl
  | ok ss => exact spell_steps [] [] ss

end Ownership.Glob
