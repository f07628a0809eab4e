set_option autoImplicit false

/-!
# Reading positions in YAML text

A cursor holds the text that is left with the number of bytes before it, its line and its column,
all from zero. Line ends are LF, CR, CR LF and three characters from beyond ASCII; only a line end
moves to the next line.
-/
namespace Ownership.Yaml

inductive Fault where
  | character
  | tab
  | quote
  | escape
  | scalarHeader
  | colon
  | key
  | indentation
  | token
  | anchor
  | tag
  | directive
  | nesting
  | moreDocuments
  | unknownAnchor
  | repetition
  | depth
  | duplicateKey
  | number
deriving DecidableEq, Repr

def Fault.message : Fault → String
  | .character => "a character is not allowed"
  | .tab => "a tab stands where blanks indent"
  | .quote => "a quoted text is not closed"
  | .escape => "an escape is unknown"
  | .scalarHeader => "a block text has a bad header"
  | .colon => "a colon is misplaced"
  | .key => "a key has no value indicator"
  | .indentation => "an entry is not allowed here"
  | .token => "a character starts nothing"
  | .anchor => "an anchor has a bad name"
  | .tag => "a tag is malformed"
  | .directive => "a directive is malformed"
  | .nesting => "the document's structure is broken"
  | .moreDocuments => "there is more than one document"
  | .unknownAnchor => "an alias names no anchor"
  | .repetition => "aliases repeat too much"
  | .depth => "the nesting is too deep"
  | .duplicateKey => "a key occurs twice"
  | .number => "a number is out of range"

def isBreak (c : Char) : Bool :=
  c == '\n' || c == '\r' || c.toNat == 0x85 || c.toNat == 0x2028 || c.toNat == 0x2029

def isBlank (c : Char) : Bool :=
  c == ' ' || c == '\t'

def endsWord : Option Char → Bool
  | none => true
  | some c => isBlank c || isBreak c

def isNameChar (c : Char) : Bool :=
  c.isAlphanum || c == '_' || c == '-'

def isAllowed (c : Char) : Bool :=
  let n := c.toNat
  n == 0x09 || n == 0x0A || n == 0x0D || (0x20 ≤ n && n ≤ 0x7E) || n == 0x85 ||
    (0xA0 ≤ n && n ≤ 0xFFFD) || 0x10000 ≤ n

/-- A line end as it counts in a scalar: only the separators of lines and paragraphs stay. -/
def breakText (c : Char) : Char :=
  if c.toNat == 0x2028 || c.toNat == 0x2029 then c else '\n'

def hexValue? (c : Char) : Option Nat :=
  if c.isDigit then some (c.toNat - '0'.toNat)
  else if 'a' ≤ c && c ≤ 'f' then some (c.toNat - 'a'.toNat + 10)
  else if 'A' ≤ c && c ≤ 'F' then some (c.toNat - 'A'.toNat + 10)
  else none

structure Cursor where
  rest : List Char
  index : Nat
  line : Nat
  column : Nat

namespace Cursor

def ofText (cs : List Char) : Cursor :=
  ⟨cs, 0, 0, 0⟩

def peek (c : Cursor) : Option Char :=
  c.rest.head?

def peekAt (c : Cursor) (n : Nat) : Option Char :=
  c.rest[n]?

/-- The cursor after the next character; CR LF is passed at once. -/
def next : Cursor → Cursor
  | ⟨'\r' :: '\n' :: rest, index, line, _⟩ => ⟨rest, index + 2, line + 1, 0⟩
  | ⟨c :: rest, index, line, column⟩ =>
    if isBreak c then ⟨rest, index + c.utf8Size, line + 1, 0⟩
    else ⟨rest, index + c.utf8Size, line, column + 1⟩
  | c => c

def skip : Nat → Cursor → Cursor
  | 0, c => c
  | n + 1, c => skip n c.next

def takeWhile (p : Char → Bool) (c : Cursor) : List Char × Cursor :=
  let taken := c.rest.takeWhile p
  let index := taken.foldl (fun n ch => n + ch.utf8Size) c.index
  (taken, ⟨c.rest.dropWhile p, index, c.line, c.column + taken.length⟩)

def skipWhile (p : Char → Bool) (c : Cursor) : Cursor :=
  (c.takeWhile p).2

/-- The cursor after a byte order mark, which may start any line. -/
def skipMark (c : Cursor) : Cursor :=
  if c.column == 0 && c.peek.any (·.toNat == 0xFEFF) then c.next else c

def skipComment (c : Cursor) : Cursor :=
  let c := c.skipWhile isBlank
  if c.peek == some '#' then c.skipWhile (!isBreak ·) else c

def atBreak (c : Cursor) : Bool :=
  c.peek.any isBreak

def atMarker (m : Char) (c : Cursor) : Bool :=
  c.column == 0 && c.rest.take 3 == [m, m, m] && endsWord (c.peekAt 3)

def atBoundary (c : Cursor) : Bool :=
  c.atMarker '-' || c.atMarker '.'

end Cursor

end Ownership.Yaml
