import Ownership.Glob.Basic

set_option autoImplicit false

/-!
# Path segments and pattern segments

A path is the list of its segments between slashes, without empty ones and `.`. A pattern segment
is a literal, a wildcard within one segment, or `**`, which takes any number of path segments.
-/
namespace Ownership

def pathSegments (path : String) : List String :=
  ((Text.splitAll (· == '/') path.toList).filter fun s => s ≠ [] && s ≠ ['.']).map String.ofList

inductive Segment where
  | literal (text : String)
  | wildcard (glob : Glob)
  | anyDepth
deriving DecidableEq

namespace Segment

/-- How a segment takes path segments: `**` is a run, the others take exactly one. -/
def step : Segment → Wild.Step Segment
  | .anyDepth => .run
  | s => .one s

def accepts : Segment → String → Bool
  | .literal text, part => text == part
  | .wildcard glob, part => glob.accepts part
  | .anyDepth, _ => true

/-- Whether every path segment that `b` takes is taken by `a`. `true` is meant to be right;
`false` may also mean that it was not seen. -/
def covers : Segment → Segment → Bool
  | .literal a, .literal b => a == b
  | .wildcard a, .literal b => a.accepts b
  | .literal _, .wildcard _ => false
  | .wildcard a, .wildcard b =>
    if a.text = "*" || a = b then true
    else match a.starThenLiteral? with
      | some ending => ending.isSuffixOf b.literalEnd
      | none =>
        match a.literalThenStar? with
        | some start => start.isPrefixOf b.literalStart
        | none => false
  | _, .anyDepth => false
  | .anyDepth, _ => false

def startsAgree (a b : List Char) : Bool :=
  b.isPrefixOf a || a.isPrefixOf b

def endsAgree (a b : List Char) : Bool :=
  b.isSuffixOf a || a.isSuffixOf b

/-- Whether some path segment may be taken by both. `false` is meant to be right; two wildcards
are told apart by their literal ends alone. -/
def intersects : Segment → Segment → Bool
  | .literal a, .literal b => a == b
  | .wildcard g, .literal l => g.accepts l
  | .literal l, .wildcard g => g.accepts l
  | .wildcard a, .wildcard b =>
    startsAgree a.literalStart b.literalStart && endsAgree a.literalEnd b.literalEnd
  | _, .anyDepth => true
  | .anyDepth, _ => true

end Segment

end Ownership
