import Ownership.Glob.Reading

set_option autoImplicit false

/-!
# Wildcard segments

A wildcard segment knows only `*`, `?` and classes that are closed; braces, commas and a `[`
without its `]` are themselves. `escape` turns such a text into glob text with the same meaning,
after runs of stars have been collapsed.
-/
namespace Ownership

def Glob.collapseStars : List Char → List Char
  | '*' :: '*' :: cs => Glob.collapseStars ('*' :: cs)
  | c :: cs => c :: Glob.collapseStars cs
  | [] => []

/-- How many characters of `cs`, which follow a `[`, belong to its class, the closing `]`
included. A `]` in first place, also after `!` or `^`, is a member. -/
def Glob.classLength (cs : List Char) : Option Nat :=
  let sign := match cs with
    | '!' :: _ | '^' :: _ => 1
    | _ => 0
  let lead := match cs.drop sign with
    | ']' :: _ => sign + 1
    | _ => sign
  ((cs.drop lead).idxOf? ']').map (lead + 1 + ·)

/-- Copies `verbatim` characters as they are, then escapes. -/
def Glob.escapeFrom : Nat → List Char → List Char
  | _, [] => []
  | verbatim + 1, c :: cs => c :: Glob.escapeFrom verbatim cs
  | 0, c :: cs =>
    match c with
    | '{' => '[' :: '{' :: ']' :: Glob.escapeFrom 0 cs
    | '}' => '[' :: '}' :: ']' :: Glob.escapeFrom 0 cs
    | ',' => '[' :: ',' :: ']' :: Glob.escapeFrom 0 cs
    | '[' =>
      match Glob.classLength cs with
      | some n => '[' :: Glob.escapeFrom n cs
      | none => '[' :: '[' :: ']' :: Glob.escapeFrom 0 cs
    | _ => c :: Glob.escapeFrom 0 cs

def Glob.escape (cs : List Char) : List Char :=
  Glob.escapeFrom 0 cs

/-- A compiled wildcard segment. `text` is its star-collapsed text, and determines the rest. -/
structure Glob where
  text : String
  branches : List (List (Wild.Step Glob.ByteTest))
  reads : Glob.readGlob (Glob.escape text.toList) = .ok branches

namespace Glob

theorem ext_text {g h : Glob} (e : g.text = h.text) : g = h := by
  obtain ⟨t, bs, hb⟩ := g
  obtain ⟨u, cs, hc⟩ := h
  obtain rfl : t = u := e
  obtain rfl : bs = cs := by simpa using hb.symm.trans hc
  rfl

instance : DecidableEq Glob := fun g h =>
  decidable_of_iff (g.text = h.text) ⟨ext_text, congrArg text⟩

def ofSegment (segment : String) : Except GlobError Glob :=
  let text := String.ofList (collapseStars segment.toList)
  match h : readGlob (escape text.toList) with
  | .ok branches => .ok ⟨text, branches, h⟩
  | .error e => .error e

def accepts (g : Glob) (segment : String) : Bool :=
  let bytes := Text.bytes segment.toList
  g.branches.any fun steps => Wild.accepts ByteTest.passes steps bytes

def isMeta (c : Char) : Bool :=
  c ∈ ['*', '?', '[', ']', '{', '}', ',']

def literalStart (g : Glob) : List Char :=
  g.text.toList.takeWhile (!isMeta ·)

def literalEnd (g : Glob) : List Char :=
  (g.text.toList.reverse.takeWhile (!isMeta ·)).reverse

/-- The literal after a leading `*` when nothing else is special, as in `*.md`. -/
def starThenLiteral? (g : Glob) : Option (List Char) :=
  match g.text.toList with
  | '*' :: rest => if rest.any isMeta then none else some rest
  | _ => none

/-- The literal before a final `*` when nothing else is special, as in `README*`. -/
def literalThenStar? (g : Glob) : Option (List Char) :=
  match g.text.toList.reverse with
  | '*' :: rest => if rest.any isMeta then none else some rest.reverse
  | _ => none

end Glob

end Ownership
