import Ownership.Yaml.Cursor

set_option autoImplicit false

/-!
# Scalars

The text of a plain, quoted or block scalar. Within plain and quoted scalars a run of blanks and
line ends is folded: blanks stay, one line end becomes a blank, and of more line ends all but the
first stay.
-/
namespace Ownership.Yaml

/-- A run of blanks and line ends: the blanks before the first line end, the line ends, and the
columns of the tabs after one. -/
structure Gap where
  blanks : List Char := []
  breaks : List Char := []
  tabs : List Nat := []

namespace Gap

def add (g : Gap) (column : Nat) (c : Char) : Gap :=
  if isBreak c then { g with breaks := g.breaks ++ [breakText c] }
  else if g.breaks.isEmpty then { g with blanks := g.blanks ++ [c] }
  else if c == '\t' then { g with tabs := g.tabs ++ [column] }
  else g

def readFrom : Nat → Gap → Cursor → Gap × Cursor
  | 0, g, c => (g, c)
  | fuel + 1, g, c =>
    match c.peek with
    | some ch =>
      if isBlank ch || isBreak ch then readFrom fuel (g.add c.column ch) c.next else (g, c)
    | none => (g, c)

def read (c : Cursor) : Gap × Cursor :=
  readFrom c.rest.length {} c

def fold (g : Gap) : List Char :=
  match g.breaks with
  | [] => g.blanks
  | ['\n'] => [' ']
  | '\n' :: more => more
  | breaks => breaks

end Gap

/-- A scalar's text with the cursor after it. `endsLine` tells that a line ended on the way. -/
structure ScalarText where
  text : String
  endsLine : Bool
  after : Cursor

namespace Plain

def isFlowIndicator (c : Char) : Bool :=
  c ∈ [',', '[', ']', '\x7b', '\x7d']

def ends (inFlow : Bool) (c : Char) (after : Option Char) : Bool :=
  isBlank c || isBreak c || (c == ':' && endsWord after) || (inFlow && isFlowIndicator c)

/-- A colon in a flow collection that looks like a value indicator without being one. -/
def isStrayColon (inFlow : Bool) (c : Char) (after : Option Char) : Bool :=
  inFlow && c == ':' && after.any fun d => d == '?' || isFlowIndicator d

def word (inFlow : Bool) : List Char → Except Fault (List Char)
  | [] => .ok []
  | c :: rest =>
    if isStrayColon inFlow c rest.head? then .error .colon
    else if ends inFlow c rest.head? then .ok []
    else (word inFlow rest).map (c :: ·)

def readFrom (inFlow : Bool) (indent : Int) : Nat → String → Gap → Cursor → Except Fault ScalarText
  | 0, _, _, _ => .error .token
  | fuel + 1, text, gap, c => do
    if c.atBoundary || c.peek == some '#' then
      return ⟨text, !gap.breaks.isEmpty, c⟩
    let letters ← word inFlow c.rest
    if letters.isEmpty then
      return ⟨text, !gap.breaks.isEmpty, c⟩
    let text := text ++ String.ofList (gap.fold ++ letters)
    let (gap, after) := Gap.read (c.skip letters.length)
    if gap.tabs.any fun column => (column : Int) < indent then
      throw .tab
    if gap.blanks.isEmpty && gap.breaks.isEmpty || !inFlow && (after.column : Int) < indent then
      return ⟨text, !gap.breaks.isEmpty, after⟩
    readFrom inFlow indent fuel text gap after

def read (inFlow : Bool) (indent : Int) (c : Cursor) : Except Fault ScalarText :=
  readFrom inFlow indent (c.rest.length + 1) "" {} c

end Plain

namespace Quoted

def letter? : Char → Option Char
  | '0' => some '\x00'
  | 'a' => some '\x07'
  | 'b' => some '\x08'
  | 't' => some '\t'
  | '\t' => some '\t'
  | 'n' => some '\n'
  | 'v' => some '\x0b'
  | 'f' => some '\x0c'
  | 'r' => some '\r'
  | 'e' => some '\x1b'
  | ' ' => some ' '
  | '"' => some '"'
  | '/' => some '/'
  | '\\' => some '\\'
  | 'N' => some (Char.ofNat 0x85)
  | '_' => some (Char.ofNat 0xA0)
  | 'L' => some (Char.ofNat 0x2028)
  | 'P' => some (Char.ofNat 0x2029)
  | _ => none

def codeLength? : Char → Option Nat
  | 'x' => some 2
  | 'u' => some 4
  | 'U' => some 8
  | _ => none

def code? (count : Nat) (cs : List Char) : Option Nat :=
  if cs.length < count then none
  else (cs.take count).foldlM (fun n c => (hexValue? c).map (16 * n + ·)) 0

def escape? : List Char → Option (Char × Nat)
  | '\\' :: c :: rest =>
    match codeLength? c with
    | some count =>
      match code? count rest with
      | some n => if n.isValidChar then some (Char.ofNat n, count + 2) else none
      | none => none
    | none => (letter? c).map fun ch => (ch, 2)
  | _ => none

def isDouble (q : Char) : Bool :=
  q == '"'

def readFrom (q : Char) : Nat → String → Cursor → Except Fault ScalarText
  | 0, _, _ => .error .quote
  | fuel + 1, text, c =>
    if c.atBoundary then .error .quote
    else
      match c.peek with
      | none => .error .quote
      | some ch =>
        if ch == q then
          if !isDouble q && c.peekAt 1 == some q then readFrom q fuel (text.push q) (c.skip 2)
          else .ok ⟨text, false, c.next⟩
        else if isBlank ch || isBreak ch then
          let (gap, after) := Gap.read c
          readFrom q fuel (text ++ String.ofList gap.fold) after
        else if isDouble q && ch == '\\' then
          if c.next.atBreak then
            let (gap, after) := Gap.read c.next.next
            readFrom q fuel (text ++ String.ofList gap.breaks) after
          else
            match escape? c.rest with
            | some (value, length) => readFrom q fuel (text.push value) (c.skip length)
            | none => .error .escape
        else readFrom q fuel (text.push ch) c.next

def read (q : Char) (c : Cursor) : Except Fault ScalarText :=
  readFrom q (c.rest.length + 1) "" c.next

end Quoted

namespace Block

inductive Chomping where
  | strip
  | clip
  | keep
deriving DecidableEq, Repr

def chomping? : Option Char → Option Chomping
  | some '+' => some .keep
  | some '-' => some .strip
  | _ => none

def digit? (c : Cursor) : Except Fault (Option Nat) :=
  match c.peek with
  | some '0' => .error .scalarHeader
  | some d => .ok (if d.isDigit then some (d.toNat - '0'.toNat) else none)
  | none => .ok none

/-- The chomping and the indentation, in either order. -/
def header (c : Cursor) : Except Fault (Chomping × Option Nat × Cursor) := do
  match chomping? c.peek with
  | some chomping =>
    let digit ← digit? c.next
    return (chomping, digit, c.next.skip digit.toList.length)
  | none =>
    let digit ← digit? c
    let c := c.skip digit.toList.length
    match digit, chomping? c.peek with
    | some _, some chomping => return (chomping, digit, c.next)
    | _, _ => return (.clip, digit, c)

/-- The empty lines before a line with text: the greatest column reached, the line ends, and the
cursor behind the indentation of that line. Without `indent` all blanks indent. -/
def emptyLines (indent : Option Nat) : Nat → Nat → List Char → Cursor →
    Except Fault (Nat × List Char × Cursor)
  | 0, widest, breaks, c => .ok (widest, breaks, c)
  | fuel + 1, widest, breaks, c =>
    let width := match indent with
      | some column => column - c.column
      | none => c.rest.length
    let c := c.skip ((c.rest.take width).takeWhile (· == ' ')).length
    let widest := max widest c.column
    if indent.all (c.column < ·) && c.peek == some '\t' then .error .tab
    else
      match c.peek with
      | some ch =>
        if isBreak ch then emptyLines indent fuel widest (breaks ++ [breakText ch]) c.next
        else .ok (widest, breaks, c)
      | none => .ok (widest, breaks, c)

/-- What is known between two lines: the last line's end, the empty lines after it, and whether the
last line started with a blank. -/
structure Joint where
  lineEnd : List Char := []
  empty : List Char := []
  blankStart : Bool := false

/-- What stands between two lines. Folding replaces a line end by a blank, unless empty lines
follow or one of the lines starts with a blank. -/
def Joint.text (j : Joint) (literal blankStart : Bool) : List Char :=
  if !literal && j.lineEnd == ['\n'] && !j.blankStart && !blankStart then
    if j.empty.isEmpty then [' '] else j.empty
  else j.lineEnd ++ j.empty

def linesFrom (literal : Bool) (indent : Nat) : Nat → String → Joint → Cursor →
    Except Fault (String × Joint × Cursor)
  | 0, text, joint, c => .ok (text, joint, c)
  | fuel + 1, text, joint, c =>
    if c.column != indent || c.peek.isNone then .ok (text, joint, c)
    else do
      let blankStart := c.peek.any isBlank
      let (line, after) := c.takeWhile (!isBreak ·)
      let lineEnd := after.peek.toList.map breakText
      let start := after.next
      let (_, empty, start) ← emptyLines (some indent) (start.rest.length + 1) 0 [] start
      linesFrom literal indent fuel
        (text ++ String.ofList (joint.text literal blankStart ++ line))
        ⟨lineEnd, empty, blankStart⟩ start

def read (literal : Bool) (parent : Int) (c : Cursor) : Except Fault ScalarText := do
  let (chomping, digit, c) ← header c.next
  let c := c.skipComment
  if c.peek.isSome && !c.atBreak then
    throw .scalarHeader
  let c := c.next
  let indent := digit.map fun d => if 0 ≤ parent then parent.toNat + d else d
  let (widest, empty, c) ← emptyLines indent (c.rest.length + 1) 0 [] c
  let indent := indent.getD (max widest (max (parent + 1).toNat 1))
  let (text, joint, after) ← linesFrom literal indent (c.rest.length + 1) "" ⟨[], empty, false⟩ c
  let tail := match chomping with
    | .strip => []
    | .clip => joint.lineEnd
    | .keep => joint.lineEnd ++ joint.empty
  return ⟨text ++ String.ofList tail, true, after⟩

end Block

end Ownership.Yaml
