import Ownership.Text.Basic
import Ownership.Yaml.Tag
import Ownership.Yaml.Value

set_option autoImplicit false

/-!
# Data as YAML text

The block form: two blanks a level, a line for each item and entry, `[]` and `{}` when empty. A text
is written plain unless that could be read as something else; then it is quoted, and a text of
several lines is written as a literal block.
-/
namespace Ownership.Yaml

def isPrintable (c : Char) : Bool :=
  let n := c.toNat
  n == 0x0A || (0x20 ≤ n && n ≤ 0x7E) || (0xA0 ≤ n && n ≤ 0xFFFD && n != 0xFEFF) || 0x10000 ≤ n

namespace Written

/-- What decides how a text may be written. `spaceBreak` has a blank before a line end, `breakSpace`
one after it. -/
structure Traits where
  multiline : Bool
  special : Bool
  leadingSpace : Bool
  trailingSpace : Bool
  spaceBreak : Bool
  breakSpace : Bool

def hasPair (p q : Char → Bool) : List Char → Bool
  | a :: b :: cs => (p a && q b) || hasPair p q (b :: cs)
  | _ => false

def traits (cs : List Char) : Traits where
  multiline := cs.any isBreak
  special := cs.any (!isPrintable ·)
  leadingSpace := cs.head? == some ' '
  trailingSpace := cs.getLast? == some ' '
  spaceBreak := hasPair (· == ' ') isBreak cs
  breakSpace := hasPair isBreak (· == ' ') cs

def startIndicators : List Char :=
  ['#', ',', '[', ']', '\x7b', '\x7d', '&', '*', '!', '|', '>', '\'', '"', '%', '@', '`']

def breaksPlain : Option Char → List Char → Bool
  | _, [] => false
  | before, c :: cs =>
    (c == ':' && endsWord cs.head?) || (c == '#' && endsWord before) || breaksPlain (some c) cs

def startsIndicator (cs : List Char) : Bool :=
  cs.head?.any (fun c => c ∈ startIndicators || ((c == '?' || c == '-') && endsWord cs[1]?)) ||
    cs.take 3 == ['-', '-', '-'] || cs.take 3 == ['.', '.', '.']

def allowsPlain (cs : List Char) : Bool :=
  let t := traits cs
  !(t.multiline || t.special || t.leadingSpace || t.trailingSpace ||
    startsIndicator cs || breaksPlain none cs)

def allowsQuotes (cs : List Char) : Bool :=
  let t := traits cs
  !(t.special || t.spaceBreak || t.breakSpace)

def allowsBlock (cs : List Char) : Bool :=
  let t := traits cs
  !(t.special || t.spaceBreak || t.trailingSpace)

def isAmbiguous (s : String) : Bool :=
  match plainValue s with
  | .ok (.text _) => isPadded s.toList
  | _ => true

def spaces (n : Nat) : List Char :=
  List.replicate n ' '

def indented (indent : Nat) : Bool → List Char → List Char
  | _, [] => []
  | fresh, c :: cs =>
    if isBreak c then c :: indented indent true cs
    else (if fresh then spaces indent else []) ++ c :: indented indent false cs

def singleQuoted (indent : Nat) (cs : List Char) : List Char :=
  let doubled := cs.flatMap fun c => if c == '\'' then ['\'', '\''] else [c]
  '\'' :: indented indent false doubled ++
    (if cs.getLast?.any isBreak then spaces indent else []) ++ ['\'']

def hexDigits (width n : Nat) : List Char :=
  let digits := (Nat.toDigits 16 n).map Char.toUpper
  List.replicate (width - digits.length) '0' ++ digits

def escapeLetter? (c : Char) : Option Char :=
  match c.toNat with
  | 0x00 => some '0'
  | 0x07 => some 'a'
  | 0x08 => some 'b'
  | 0x09 => some 't'
  | 0x0A => some 'n'
  | 0x0B => some 'v'
  | 0x0C => some 'f'
  | 0x0D => some 'r'
  | 0x1B => some 'e'
  | 0x22 => some '"'
  | 0x5C => some '\\'
  | 0x85 => some 'N'
  | 0xA0 => some '_'
  | 0x2028 => some 'L'
  | 0x2029 => some 'P'
  | _ => none

def escape (c : Char) : List Char :=
  if isPrintable c && !isBreak c && c != '"' && c != '\\' then [c]
  else
    match escapeLetter? c with
    | some letter => ['\\', letter]
    | none =>
      let n := c.toNat
      if n ≤ 0xFF then '\\' :: 'x' :: hexDigits 2 n
      else if n ≤ 0xFFFF then '\\' :: 'u' :: hexDigits 4 n
      else '\\' :: 'U' :: hexDigits 8 n

def doubleQuoted (cs : List Char) : List Char :=
  '"' :: cs.flatMap escape ++ ['"']

/-- The hints of a literal block: its indentation when the text starts with a blank or a line end,
and what happens to the line ends at its end. -/
def hints (cs : List Char) : List Char :=
  let indentation := if cs.head?.any fun c => c == ' ' || isBreak c then ['2'] else []
  let chomping := match cs.reverse with
    | [] => ['-']
    | [c] => if isBreak c then ['+'] else ['-']
    | c :: d :: _ => if !isBreak c then ['-'] else if isBreak d then ['+'] else []
  indentation ++ chomping

def literal (indent : Nat) (cs : List Char) : List Char :=
  '|' :: hints cs ++ '\n' :: indented indent true cs

def text (indent : Nat) (s : String) : List Char :=
  let cs := s.toList
  if '\n' ∈ cs then if allowsBlock cs then literal indent cs else doubleQuoted cs
  else if allowsPlain cs && !isAmbiguous s then cs
  else if allowsQuotes cs then singleQuoted indent cs
  else doubleQuoted cs

def scalarText : Datum → String
  | .null => "null"
  | .bool b => toString b
  | .int n => toString n
  | .float x => FloatFormat.compact.write x
  | .text s => s
  | _ => ""

def scalar (indent : Nat) : Datum → List Char
  | .text s => text indent s
  | d => (scalarText d).toList

def fullTag (name : String) : String :=
  if name.toList.head? == some '!' then name else "!" ++ name

def tagChar (c : Char) : List Char :=
  if Tag.isUriChar true c && c != '!' && c != '%' then [c]
  else (String.utf8EncodeChar c).flatMap fun byte => '%' :: hexDigits 2 byte.toNat

def tag (name : String) : List Char :=
  match (fullTag name).toList with
  | ['!'] => '!' :: '<' :: tagChar '!' ++ ['>']
  | cs => '!' :: (cs.drop 1).flatMap tagChar

/-- The longest key that stands before its value in one line, in bytes. -/
def maxKeySize : Nat := 128

def lineSize? : Datum → Option Nat
  | .list items => if items.isEmpty then some 0 else none
  | .table entries => if entries.isEmpty then some 0 else none
  | .tagged name d => (lineSize? d).map ((fullTag name).utf8ByteSize + ·)
  | d => if (scalarText d).toList.any isBreak then none else some (scalarText d).utf8ByteSize

def isSimpleKey (d : Datum) : Bool :=
  (lineSize? d).any (· ≤ maxKeySize)

/-- Two lines of a collection at column `indent`; a literal block has ended its last line itself,
and a missing second line leaves the first alone. -/
def joinLines (indent : Nat) (first rest : List Char) : List Char :=
  if rest.isEmpty then first
  else if first.getLast?.any isBreak then first ++ spaces indent ++ rest
  else first ++ '\n' :: spaces indent ++ rest

/-- Where a node stands: the column of the collection around it, if there is one, whether that is a
table, and whether only indicators stand before the node in its line. -/
structure Place where
  outer : Option Nat := none
  inTable : Bool := false
  behindIndicator : Bool := true

namespace Place

def textColumn (p : Place) : Nat :=
  p.outer.elim 2 (· + 2)

def tableColumn (p : Place) : Nat :=
  p.outer.elim 0 (· + 2)

/-- A list as the value of a key needs no indentation. -/
def listColumn (p : Place) : Nat :=
  p.outer.elim 0 fun column => if p.inTable && !p.behindIndicator then column else column + 2

def opening (p : Place) (column : Nat) : List Char :=
  if p.behindIndicator then [' '] else '\n' :: spaces column

def behindTag (p : Place) : Place :=
  { p with behindIndicator := false }

end Place

mutual

def node (p : Place) : Datum → List Char
  | .list items =>
    if items.isEmpty then [' ', '[', ']'] else p.opening p.listColumn ++ list p.listColumn items
  | .table entries =>
    if entries.isEmpty then [' ', '\x7b', '\x7d']
    else p.opening p.tableColumn ++ table p.tableColumn entries
  | .tagged name d => ' ' :: tag name ++ node p.behindTag d
  | d => ' ' :: scalar p.textColumn d

def list (column : Nat) : List Datum → List Char
  | [] => []
  | item :: items =>
    joinLines column ('-' :: node { outer := some column } item) (list column items)

def table (column : Nat) : List (Datum × Datum) → List Char
  | [] => []
  | (key, d) :: entries =>
    let place : Place := { outer := some column, inTable := true }
    let line :=
      if isSimpleKey key then (node place key).drop 1 ++ ':' :: node place.behindTag d
      else joinLines column ('?' :: node place key) (':' :: node place d)
    joinLines column line (table column entries)

end

def isPair : Datum → Bool
  | .tagged .. => true
  | .table entries => entries.length == 1
  | _ => false

mutual

/-- Whether data can be written: the only key of a table must not be a pair itself, unless the table
is tagged. -/
def isWritable (isTagged : Bool) : Datum → Bool
  | .list items => areWritable items
  | .table entries =>
    (isTagged || entries.length != 1 || !entries.any (isPair ·.1)) && entriesWritable entries
  | .tagged _ d => isWritable true d
  | _ => true

def areWritable : List Datum → Bool
  | [] => true
  | item :: items => isWritable false item && areWritable items

def entriesWritable : List (Datum × Datum) → Bool
  | [] => true
  | (key, d) :: entries => isWritable false key && isWritable false d && entriesWritable entries

end

end Written

def write (d : Datum) : Option String :=
  if Written.isWritable false d then
    let document := (Written.node {} d).drop 1
    some (String.ofList (Text.dropEndWhile Text.isBlank document))
  else none

end Ownership.Yaml
