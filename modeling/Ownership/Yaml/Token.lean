import Ownership.Yaml.Scalar
import Ownership.Yaml.Tag

set_option autoImplicit false

/-!
# YAML tokens

A document as a list of tokens in which every block collection has a start and an end and every key
is announced. A text that turns out to be a key gets its key token, and if need be the start of a
table, in front of it when the value indicator comes; `Candidate` remembers the place.
-/
namespace Ownership.Yaml

inductive Token where
  | directive (d : Directive)
  | documentStart
  | documentEnd
  | blockList
  | blockTable
  | blockEnd
  | flowList
  | flowListEnd
  | flowTable
  | flowTableEnd
  | item
  | comma
  | key
  | value
  | reference (name : String)
  | anchor (name : String)
  | tag (t : Tag)
  | scalar (plain : Bool) (text : String)

namespace Token

/-- Where a key may have started: the position in the text and in the list of tokens. A required one
has to become a key. -/
structure Candidate where
  required : Bool
  token : Nat
  start : Cursor

/-- The tokens up to a cursor. `indent` is the column of the innermost block collection, and
`outer` has those around it; `levels` has a place for each open flow collection and one for the
block around them. -/
structure State where
  cursor : Cursor
  tokens : Array Token := #[]
  indent : Int := -1
  outer : List Int := []
  levels : List (Option Candidate) := [none]
  keyAllowed : Bool := true

namespace State

def inFlow (s : State) : Bool :=
  1 < s.levels.length

def push (s : State) (t : Token) : State :=
  { s with tokens := s.tokens.push t }

def pushWord (s : State) (n : Nat) (t : Token) : State :=
  { s with tokens := s.tokens.push t, cursor := s.cursor.skip n }

def allowKey (s : State) (allowed : Bool) : State :=
  { s with keyAllowed := allowed }

def openBlock (s : State) (column : Nat) (position : Nat) (t : Token) : State :=
  if !s.inFlow && s.indent < column then
    { s with
      indent := column
      outer := s.indent :: s.outer
      tokens := s.tokens.insertIdxIfInBounds position t }
  else s

def closeBlocksFrom (column : Int) : List Int → State → State
  | [], s => s
  | indent :: outer, s =>
    if column < s.indent then
      closeBlocksFrom column outer { s with tokens := s.tokens.push .blockEnd, indent, outer }
    else s

def closeBlocks (s : State) (column : Int) : State :=
  if s.inFlow then s else closeBlocksFrom column s.outer s

/-- A key has to be on one line and at most 1024 bytes long. -/
def isStale (c : Cursor) (k : Candidate) : Bool :=
  k.start.line < c.line || k.start.index + 1024 < c.index

def dropStale (s : State) : Except Fault State := do
  let levels ← s.levels.mapM fun
    | some k =>
      if isStale s.cursor k then
        if k.required then .error .key else .ok none
      else .ok (some k)
    | none => .ok none
  return { s with levels }

def dropCandidate (s : State) : Except Fault State :=
  match s.levels with
  | some k :: levels => if k.required then .error .key else .ok { s with levels := none :: levels }
  | _ => .ok s

def markCandidate (s : State) : Except Fault State :=
  if s.keyAllowed then do
    let s ← s.dropCandidate
    let k : Candidate :=
      ⟨!s.inFlow && s.indent == s.cursor.column, s.tokens.size, s.cursor⟩
    return { s with levels := some k :: s.levels.drop 1 }
  else .ok s

/-- Passes byte order marks, blanks, comments and line ends. A tab is no blank where a key may
start in a block. -/
def skipSpaceFrom : Nat → State → State
  | 0, s => s
  | fuel + 1, s =>
    let tabs := s.inFlow || !s.keyAllowed
    let c := s.cursor.skipMark.skipWhile fun ch => ch == ' ' || (ch == '\t' && tabs)
    let c := if c.peek == some '#' then c.skipWhile (!isBreak ·) else c
    if c.atBreak then
      skipSpaceFrom fuel { s with cursor := c.next, keyAllowed := s.keyAllowed || !s.inFlow }
    else { s with cursor := c }

def skipSpace (s : State) : State :=
  skipSpaceFrom (s.cursor.rest.length + 1) s

def toTop (s : State) : Except Fault State := do
  let s ← (s.closeBlocks (-1)).dropCandidate
  return s.allowKey false

def openFlow (s : State) (t : Token) : Except Fault State := do
  let s ← s.markCandidate
  return ({ s with levels := none :: s.levels }.allowKey true).pushWord 1 t

def closeFlow (s : State) (t : Token) : Except Fault State := do
  let s ← s.dropCandidate
  let levels := if s.inFlow then s.levels.drop 1 else s.levels
  return ({ s with levels }.allowKey false).pushWord 1 t

def addComma (s : State) : Except Fault State := do
  let s ← s.dropCandidate
  return (s.allowKey true).pushWord 1 .comma

/-- Starts a block collection at an indicator, which a block allows only where a key may start. -/
def openAtIndicator (s : State) (t : Token) : Except Fault State :=
  if s.inFlow then .ok s
  else if !s.keyAllowed then .error .indentation
  else .ok (s.openBlock s.cursor.column s.tokens.size t)

def addItem (s : State) : Except Fault State := do
  let s ← (← s.openAtIndicator .blockList).dropCandidate
  return (s.allowKey true).pushWord 1 .item

def addKey (s : State) : Except Fault State := do
  let s ← (← s.openAtIndicator .blockTable).dropCandidate
  return (s.allowKey (!s.inFlow)).pushWord 1 .key

def addValue (s : State) : Except Fault State := do
  match s.levels with
  | some k :: levels =>
    let tokens := s.tokens.insertIdxIfInBounds k.token .key
    let s := { s with levels := none :: levels, tokens }
    return ((s.openBlock k.start.column k.token .blockTable).allowKey false).pushWord 1 .value
  | _ =>
    let s ← s.openAtIndicator .blockTable
    return (s.allowKey (!s.inFlow)).pushWord 1 .value

def addName (s : State) (token : String → Token) : Except Fault State := do
  let s ← s.markCandidate
  let (name, c) := s.cursor.next.takeWhile isNameChar
  let ends := endsWord c.peek || c.peek.any (· ∈ ['?', ':', ',', ']', '\x7d', '%', '@', '`'])
  if name.isEmpty || !ends then
    throw .anchor
  return { s.push (token (String.ofList name)) with cursor := c, keyAllowed := false }

def addTag (s : State) : Except Fault State := do
  let s ← s.markCandidate
  let (t, c) ← Tag.read s.inFlow s.cursor
  return { s.push (.tag t) with cursor := c, keyAllowed := false }

def addDirective (s : State) : Except Fault State := do
  let s ← s.toTop
  let (d, c) ← Directive.read s.cursor
  return { s.push (.directive d) with cursor := c }

def addBlock (s : State) (literal : Bool) : Except Fault State := do
  let s ← s.dropCandidate
  let t ← Block.read literal s.indent s.cursor
  return { s.push (.scalar false t.text) with cursor := t.after, keyAllowed := true }

def addQuoted (s : State) (q : Char) : Except Fault State := do
  let s ← s.markCandidate
  let t ← Quoted.read q s.cursor
  return { s.push (.scalar false t.text) with cursor := t.after, keyAllowed := false }

def addPlain (s : State) : Except Fault State := do
  let s ← s.markCandidate
  let t ← Plain.read s.inFlow (s.indent + 1) s.cursor
  return { s.push (.scalar true t.text) with cursor := t.after, keyAllowed := t.endsLine }

def indicators : List Char :=
  ['-', '?', ':', ',', '[', ']', '\x7b', '\x7d', '#', '&', '*', '!', '|', '>', '\'', '"', '%', '@',
    '`']

def startsPlain (s : State) (c : Char) (after : Option Char) : Bool :=
  !(isBlank c || isBreak c || c ∈ indicators) ||
    (c == '-' && !after.any isBlank) ||
    (!s.inFlow && (c == '?' || c == ':') && !endsWord after)

def add (s : State) (c : Char) : Except Fault State :=
  let after := s.cursor.peekAt 1
  let column := s.cursor.column
  if column == 0 && c == '%' then s.addDirective
  else if s.cursor.atMarker '-' then do return (← s.toTop).pushWord 3 .documentStart
  else if s.cursor.atMarker '.' then do return (← s.toTop).pushWord 3 .documentEnd
  else if c == '[' then s.openFlow .flowList
  else if c == '\x7b' then s.openFlow .flowTable
  else if c == ']' then s.closeFlow .flowListEnd
  else if c == '\x7d' then s.closeFlow .flowTableEnd
  else if c == ',' then s.addComma
  else if c == '-' && endsWord after then s.addItem
  else if c == '?' && (s.inFlow || endsWord after) then s.addKey
  else if c == ':' && (s.inFlow || endsWord after) then s.addValue
  else if c == '*' then s.addName .reference
  else if c == '&' then s.addName .anchor
  else if c == '!' then s.addTag
  else if c == '|' && !s.inFlow then s.addBlock true
  else if c == '>' && !s.inFlow then s.addBlock false
  else if c == '\'' || c == '"' then s.addQuoted c
  else if s.startsPlain c after then s.addPlain
  else .error .token

def readFrom : Nat → State → Except Fault State
  | 0, _ => .error .token
  | fuel + 1, s => do
    let s ← s.skipSpace.dropStale
    let s := s.closeBlocks s.cursor.column
    match s.cursor.peek with
    | some c => readFrom fuel (← s.add c)
    | none => s.toTop

end State

def ofText (cs : List Char) : Except Fault (List Token) :=
  if cs.all isAllowed then
    (State.readFrom (cs.length + 1) { cursor := .ofText cs }).map (·.tokens.toList)
  else .error .character

end Token

end Ownership.Yaml
