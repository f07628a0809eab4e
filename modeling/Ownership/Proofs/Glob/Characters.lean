import Ownership.Proofs.Except
import Ownership.Proofs.Glob.Parts
import Ownership.Proofs.Wild.Cut

set_option autoImplicit false

/-!
# Wildcard segments over characters

Over characters a wildcard segment is simple: a literal takes the equal character, `?` takes any
one, a class takes one that is in its set, or, if it is negated, outside of it, and a star takes any
run of them.
-/
namespace Ownership.Glob
open Ownership.Wild

def ByteClass.lists (k : ByteClass) (c : Char) : Bool :=
  k.ranges.any fun r => r.1 ≤ c && c ≤ r.2

def ByteClass.containsChar (k : ByteClass) (c : Char) : Bool :=
  k.lists c != k.negated

inductive CharTest where
  | char (c : Char)
  | any
  | oneOf (k : ByteClass)
deriving DecidableEq, Repr

namespace CharTest

def passes : CharTest → Char → Bool
  | .char a, c => a == c
  | .any, _ => true
  | .oneOf k, c => k.containsChar c

inductive Alike : CharTest → CharTest → Prop where
  | refl (t : CharTest) : Alike t t
  | oneOf {k k' : ByteClass} (hnegated : k'.negated = k.negated)
      (hlists : ∀ c, k'.lists c = k.lists c) : Alike (.oneOf k) (.oneOf k')

theorem Alike.passes_eq {t u : CharTest} (h : Alike t u) (c : Char) : u.passes c = t.passes c := by
  cases h with
  | refl => rfl
  | oneOf hnegated hlists => simp only [passes, ByteClass.containsChar, hnegated, hlists]

end CharTest

/-- What a part takes of a text of characters; fails when a class has a range that is reversed. -/
def Part.charStep : Part → Except GlobError (Step CharTest)
  | .star => .ok .run
  | .any => .ok (.one .any)
  | .closed body => (readClass body).map fun k => .one (.oneOf k)
  | .literal c => .ok (.one (.char c))

def charSteps : List Part → Except GlobError (List (Step CharTest))
  | [] => .ok []
  | p :: ps => do return (← p.charStep) :: (← charSteps ps)

theorem charSteps_cons {p : Part} {ps : List Part} {here : Step CharTest}
    {there : List (Step CharTest)} (hp : p.charStep = .ok here) (hps : charSteps ps = .ok there) :
    charSteps (p :: ps) = .ok (here :: there) := by
  rw [charSteps, hp, hps]
  rfl

theorem exists_of_charSteps_cons {p : Part} {ps : List Part} {steps : List (Step CharTest)}
    (h : charSteps (p :: ps) = .ok steps) :
    ∃ here there, p.charStep = .ok here ∧ charSteps ps = .ok there ∧ steps = here :: there := by
  simp only [charSteps, bind_eq_ok_iff] at h
  obtain ⟨here, hp, there, hps, hsteps⟩ := h
  exact ⟨here, there, hp, hps, (Except.ok.inj hsteps).symm⟩

theorem charStep_closed_eq_ok_iff {body : List Char} {step : Step CharTest} :
    (Part.closed body).charStep = .ok step ↔
      ∃ k, readClass body = .ok k ∧ step = .one (.oneOf k) :=
  map_eq_ok_iff

/-- The steps a segment is built from. -/
def readCharacters (segment : String) : Except GlobError (List (Step CharTest)) :=
  charSteps (parts segment.toList)

/-! ## Runs in a row -/

/-- The second sequence has one run where the first has some in a row. -/
inductive Collapsed : List (Step CharTest) → List (Step CharTest) → Prop where
  | nil : Collapsed [] []
  | one {t u : CharTest} {steps fewer : List (Step CharTest)} (h : t.Alike u)
      (rest : Collapsed steps fewer) : Collapsed (.one t :: steps) (.one u :: fewer)
  | run {steps fewer : List (Step CharTest)} (rest : Collapsed steps fewer) :
      Collapsed (.run :: steps) (.run :: fewer)
  | again {steps fewer : List (Step CharTest)} (rest : Collapsed (.run :: steps) (.run :: fewer)) :
      Collapsed (.run :: .run :: steps) (.run :: fewer)

theorem Collapsed.cut_iff {steps fewer : List (Step CharTest)} (h : Collapsed steps fewer)
    (cs : List Char) : Cut CharTest.passes fewer cs ↔ Cut CharTest.passes steps cs := by
  induction h generalizing cs with
  | nil => rfl
  | one h rest ih => simp only [cut_one_iff, h.passes_eq, ih]
  | run rest ih => simp only [cut_run_iff, ih]
  | again rest ih => rw [ih, cut_run_run_iff]

end Ownership.Glob
