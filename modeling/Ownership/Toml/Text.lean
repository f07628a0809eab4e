import Ownership.Decimal.Text

set_option autoImplicit false

/-!
# Texts and keys in TOML

Blanks, line ends and comments, the four kinds of quoted text, and keys. A function that reads
something takes the characters that are left and gives back those after it.
-/
namespace Ownership.Toml

inductive Fault where
  | nesting
  | string
  | escape
  | key
  | number
  | date
  | value
  | lineEnd
  | redefinition
  | depth
deriving DecidableEq, Repr

def Fault.message : Fault → String
  | .nesting => "a table or an array is not closed"
  | .string => "a quoted text is malformed"
  | .escape => "an escape is malformed"
  | .key => "a key is malformed"
  | .number => "a number is malformed or out of range"
  | .date => "a date or a time is malformed"
  | .value => "a value is missing"
  | .lineEnd => "a line does not end where it should"
  | .redefinition => "a key or a table is defined twice"
  | .depth => "the nesting is too deep"

def isSpace (c : Char) : Bool :=
  c == ' ' || c == '\t'

def isText (c : Char) : Bool :=
  c == '\t' || (0x20 ≤ c.toNat && c.toNat != 0x7F)

def isNewline : List Char → Bool
  | '\n' :: _ => true
  | '\r' :: '\n' :: _ => true
  | _ => false

def dropNewline : List Char → List Char
  | '\r' :: '\n' :: cs => cs
  | _ :: cs => cs
  | [] => []

def skipSpace (cs : List Char) : List Char :=
  cs.dropWhile isSpace

def skipComment : List Char → List Char
  | '#' :: cs => cs.dropWhile isText
  | cs => cs

def skipLinesFrom : Nat → List Char → List Char
  | 0, cs => cs
  | fuel + 1, cs =>
    let cs := skipSpace cs
    let rest := skipComment cs
    if isNewline rest then skipLinesFrom fuel (dropNewline rest) else cs

def skipLines (cs : List Char) : List Char :=
  skipLinesFrom (cs.length + 1) cs

def endLine (cs : List Char) : Except Fault (List Char) :=
  match skipComment (skipSpace cs) with
  | [] => .ok []
  | rest => if isNewline rest then .ok (dropNewline rest) else .error .lineEnd

def isHexDigit (c : Char) : Bool :=
  c.isDigit || ('a' ≤ c && c ≤ 'f') || ('A' ≤ c && c ≤ 'F')

def readCode (count : Nat) (cs : List Char) : Except Fault (Char × List Char) :=
  let digits := cs.take count
  if digits.length == count && digits.all isHexDigit then
    match naturalOfDigits? 16 digits with
    | some n => if n.isValidChar then .ok (Char.ofNat n, cs.drop count) else .error .escape
    | none => .error .escape
  else .error .escape

def readEscape : List Char → Except Fault (Char × List Char)
  | 'b' :: cs => .ok ('\x08', cs)
  | 't' :: cs => .ok ('\t', cs)
  | 'n' :: cs => .ok ('\n', cs)
  | 'f' :: cs => .ok ('\x0c', cs)
  | 'r' :: cs => .ok ('\r', cs)
  | '"' :: cs => .ok ('"', cs)
  | '\\' :: cs => .ok ('\\', cs)
  | 'u' :: cs => readCode 4 cs
  | 'U' :: cs => readCode 8 cs
  | _ => .error .escape

def readBasic : Nat → String → List Char → Except Fault (String × List Char)
  | fuel + 1, text, c :: cs =>
    if c == '"' then .ok (text, cs)
    else if c == '\\' then do
      let (value, rest) ← readEscape cs
      readBasic fuel (text.push value) rest
    else if isText c then readBasic fuel (text.push c) cs
    else .error .string
  | _, _, _ => .error .string

def readLiteral : String → List Char → Except Fault (String × List Char)
  | text, c :: cs =>
    if c == '\'' then .ok (text, cs)
    else if isText c then readLiteral (text.push c) cs
    else .error .string
  | _, [] => .error .string

def skipEmptyLines : List Char → List Char
  | '\r' :: '\n' :: cs => skipEmptyLines cs
  | c :: cs => if isSpace c || c == '\n' then skipEmptyLines cs else c :: cs
  | [] => []

def continued? (cs : List Char) : Option (List Char) :=
  let rest := skipSpace cs
  if isNewline rest then some (skipEmptyLines rest) else none

def push (text : String) (count : Nat) (c : Char) : String :=
  text ++ String.ofList (List.replicate count c)

/-- Reads up to the three closing quotes `q`. One or two quotes more may stand before them. -/
def readMultiline (q : Char) : Nat → String → List Char → Except Fault (String × List Char)
  | fuel + 1, text, c :: cs =>
    if c == q then
      let count := ((c :: cs).takeWhile (· == q)).length
      let rest := cs.drop (count - 1)
      if count < 3 then readMultiline q fuel (push text count q) rest
      else if count ≤ 5 then .ok (push text (count - 3) q, rest)
      else .error .string
    else if isNewline (c :: cs) then readMultiline q fuel (text.push '\n') (dropNewline (c :: cs))
    else if q == '"' && c == '\\' then
      match continued? cs with
      | some rest => readMultiline q fuel text rest
      | none => do
        let (value, rest) ← readEscape cs
        readMultiline q fuel (text.push value) rest
    else if isText c then readMultiline q fuel (text.push c) cs
    else .error .string
  | _, _, _ => .error .string

def dropFirstNewline (cs : List Char) : List Char :=
  if isNewline cs then dropNewline cs else cs

def readString (cs : List Char) : Except Fault (String × List Char) :=
  match cs with
  | '"' :: '"' :: '"' :: rest => readMultiline '"' (cs.length + 1) "" (dropFirstNewline rest)
  | '\'' :: '\'' :: '\'' :: rest => readMultiline '\'' (cs.length + 1) "" (dropFirstNewline rest)
  | '"' :: rest => readBasic cs.length "" rest
  | '\'' :: rest => readLiteral "" rest
  | _ => .error .string

def isKeyChar (c : Char) : Bool :=
  c.isAlphanum || c == '-' || c == '_'

def readKeyPart (cs : List Char) : Except Fault (String × List Char) :=
  match cs with
  | '"' :: rest => readBasic cs.length "" rest
  | '\'' :: rest => readLiteral "" rest
  | _ =>
    let part := cs.takeWhile isKeyChar
    if part.isEmpty then .error .key else .ok (String.ofList part, cs.dropWhile isKeyChar)

/-- The deepest nesting of values, and the greatest number of parts of a key, are below this. -/
def maxDepth : Nat := 80

def readKeyFrom : Nat → List Char → Except Fault (List String × List Char)
  | 0, _ => .error .depth
  | fuel + 1, cs => do
    let (part, rest) ← readKeyPart (skipSpace cs)
    match skipSpace rest with
    | '.' :: rest =>
      let (parts, rest) ← readKeyFrom fuel rest
      return (part :: parts, rest)
    | rest => return ([part], rest)

def readKey (cs : List Char) : Except Fault (List String × List Char) :=
  readKeyFrom (maxDepth - 1) cs

end Ownership.Toml
