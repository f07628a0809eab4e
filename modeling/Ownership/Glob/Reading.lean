import Ownership.Glob.ByteTest
import Ownership.Wild

set_option autoImplicit false

/-!
# Reading glob text

Glob text has `*` for any bytes, `?` for one byte, classes in brackets, and groups of alternatives
`{a,b}`; every other character is itself. Reading takes two passes: characters to tokens, which
settles the classes, and tokens to the list of step sequences that the groups spell out.
-/
namespace Ownership.Glob
open Ownership.Wild

inductive GlobError where
  | unclosedClass
  | invalidRange (first last : Char)
  | unopenedAlternates
  | unclosedAlternates
deriving DecidableEq, Repr

def GlobError.message : GlobError → String
  | .unclosedClass => "unclosed character class; missing ']'"
  | .invalidRange first last =>
    "invalid range; '" ++ first.toString ++ "' > '" ++ last.toString ++ "'"
  | .unopenedAlternates =>
    "unopened alternate group; missing '\x7b' (maybe escape '\x7d' with '[\x7d]'?)"
  | .unclosedAlternates =>
    "unclosed alternate group; missing '\x7d' (maybe escape '\x7b' with '[\x7b]'?)"

inductive Token where
  | step (s : Step ByteTest)
  | openGroup
  | nextAlternative
  | closeGroup
deriving DecidableEq, Repr

/-- A class being read, the newest range first. `fresh` holds until the first member, so a `]` or
`-` there is a member; `pending` tells that a `-` waits for the end of a range. -/
structure OpenClass where
  negated : Bool
  fresh : Bool
  pending : Bool
  ranges : List (Char × Char)
deriving DecidableEq, Repr

/-- After a `-` the newest range is extended, also one that already is a range. -/
def OpenClass.extend (k : OpenClass) (c : Char) : Except GlobError OpenClass :=
  match k.ranges with
  | (first, _) :: ranges =>
    if c < first then .error (.invalidRange first c)
    else .ok { k with pending := false, ranges := (first, c) :: ranges }
  | [] => .ok { k with fresh := false, pending := false, ranges := [(c, c)] }

def OpenClass.add (k : OpenClass) (c : Char) : Except GlobError OpenClass :=
  if k.pending then k.extend c
  else if c = '-' && !k.fresh then .ok { k with pending := true }
  else .ok { k with fresh := false, ranges := (c, c) :: k.ranges }

/-- A `-` that still waits is a member. -/
def OpenClass.close (k : OpenClass) : ByteClass :=
  ⟨k.negated, (if k.pending then ('-', '-') :: k.ranges else k.ranges).reverse⟩

inductive Place where
  | outside
  | opening
  | inside (k : OpenClass)
deriving DecidableEq, Repr

def literalTokens (c : Char) : List Token :=
  (Text.bytes [c]).map fun b => .step (.one (.byte b))

def plainTokens : Char → List Token
  | '?' => [.step (.one .any)]
  | '*' => [.step .run]
  | '{' => [.openGroup]
  | ',' => [.nextAlternative]
  | '}' => [.closeGroup]
  | c => literalTokens c

def tokens : Place → List Char → Except GlobError (List Token)
  | .outside, [] => .ok []
  | _, [] => .error .unclosedClass
  | .outside, '[' :: cs => tokens .opening cs
  | .outside, c :: cs => (tokens .outside cs).map (plainTokens c ++ ·)
  | .opening, c :: cs =>
    if c = '!' || c = '^' then tokens (.inside ⟨true, true, false, []⟩) cs
    else do tokens (.inside (← OpenClass.add ⟨false, true, false, []⟩ c)) cs
  | .inside k, c :: cs =>
    if c = ']' && !k.fresh then
      (tokens .outside cs).map (.step (.one (.oneOf k.close)) :: ·)
    else do tokens (.inside (← k.add c)) cs

/-- A group being read: the alternatives it already has, and those its last branch spells. Each
sequence is kept in reverse. -/
structure Group where
  before : List (List (Step ByteTest))
  branch : List (List (Step ByteTest))

/-- Spells out tokens. The first group is the text itself, where a comma is a literal. -/
def spell : Group → List Group → List Token → Except GlobError (List (List (Step ByteTest)))
  | group, [], [] => .ok (group.branch.map List.reverse)
  | _, _ :: _, [] => .error .unclosedAlternates
  | group, outer, .step s :: ts =>
    spell { group with branch := group.branch.map (s :: ·) } outer ts
  | group, outer, .openGroup :: ts => spell ⟨[], [[]]⟩ (group :: outer) ts
  | group, [], .nextAlternative :: ts =>
    spell { group with branch := group.branch.map (.one (.byte 0x2C) :: ·) } [] ts
  | group, outer, .nextAlternative :: ts =>
    spell ⟨group.before ++ group.branch, [[]]⟩ outer ts
  | _, [], .closeGroup :: _ => .error .unopenedAlternates
  | group, parent :: outer, .closeGroup :: ts =>
    let inner := group.before ++ group.branch
    let branch := parent.branch.flatMap fun start => inner.map (· ++ start)
    spell { parent with branch } outer ts

def readGlob (text : List Char) : Except GlobError (List (List (Step ByteTest))) := do
  spell ⟨[], [[]]⟩ [] (← tokens .outside text)

end Ownership.Glob
