import Ownership.Yaml.Cursor

set_option autoImplicit false

/-!
# Tags

A tag is written as a handle and a suffix; directives say what a handle stands for. Suffixes are
bytes, since they may hold escaped ones; a zero byte ends them.
-/
namespace Ownership.Yaml

structure Tag where
  handle : String
  suffix : List UInt8

namespace Tag

/-- The text of a whole tag. Without one, a tag of the application's own says nothing, and any
other is like the empty tag, which belongs to no type. -/
def text? (bytes : List UInt8) : Option String :=
  match String.fromUTF8? ⟨bytes.toArray⟩ with
  | some s => some s
  | none => if bytes.head? == some 0x21 then none else some ""

def isUriChar (verbatim : Bool) (c : Char) : Bool :=
  isNameChar c ||
    c ∈ [';', '/', '?', ':', '@', '&', '=', '+', '$', '.', '%', '!', '~', '*', '\'', '(', ')'] ||
    (verbatim && c ∈ [',', '[', ']'])

def width? (byte : Nat) : Option Nat :=
  if byte < 0x80 then some 1
  else if byte / 0x20 = 6 then some 2
  else if byte / 0x10 = 14 then some 3
  else if byte / 8 = 30 then some 4
  else none

def escapedByte? : List Char → Option Nat
  | '%' :: a :: b :: _ => do return 16 * (← hexValue? a) + (← hexValue? b)
  | _ => none

def isTrailing (byte : Nat) : Bool :=
  byte / 0x40 == 2

def escapedBytes? (cs : List Char) : Option (List Nat) := do
  let first ← escapedByte? cs
  let width ← width? first
  let more ← ((List.range (width - 1)).map fun i => escapedByte? (cs.drop (3 * (i + 1)))).mapM id
  if more.all isTrailing then return first :: more else none

def uriFrom (verbatim : Bool) : Nat → List UInt8 → Cursor → Except Fault (List UInt8 × Cursor)
  | 0, bytes, c => .ok (bytes, c)
  | fuel + 1, bytes, c =>
    match c.peek with
    | some ch =>
      if !isUriChar verbatim ch then .ok (bytes, c)
      else if ch == '%' then
        match escapedBytes? c.rest with
        | some more =>
          uriFrom verbatim fuel (bytes ++ more.map (·.toUInt8)) (c.skip (3 * more.length))
        | none => .error .tag
      else uriFrom verbatim fuel (bytes ++ String.utf8EncodeChar ch) c.next
    | none => .ok (bytes, c)

def readUri (verbatim : Bool) (start : List Char) (c : Cursor) :
    Except Fault (List UInt8 × Cursor) := do
  let (bytes, after) ← uriFrom verbatim c.rest.length (start.flatMap String.utf8EncodeChar) c
  return (bytes.takeWhile (· != 0), after)

def readHandle (c : Cursor) : Except Fault (List Char × Cursor) :=
  if c.peek != some '!' then .error .tag
  else
    let (name, after) := c.next.takeWhile isNameChar
    if after.peek == some '!' then .ok ('!' :: name ++ ['!'], after.next)
    else .ok ('!' :: name, after)

def isHandle (cs : List Char) : Bool :=
  2 ≤ cs.length && cs.getLast? == some '!'

def readVerbatim (c : Cursor) : Except Fault (Tag × Cursor) := do
  let start := c.skip 2
  let (suffix, after) ← readUri true [] start
  if after.index == start.index || after.peek != some '>' then
    throw .tag
  return (⟨"", suffix⟩, after.next)

def readShorthand (c : Cursor) : Except Fault (Tag × Cursor) := do
  let (lead, start) ← readHandle c
  if isHandle lead then
    let (suffix, after) ← readUri false [] start
    if after.index == start.index then
      throw .tag
    return (⟨String.ofList lead, suffix⟩, after)
  else
    let (suffix, after) ← readUri false (lead.drop 1) start
    return (if suffix.isEmpty then ⟨"", [0x21]⟩ else ⟨"!", suffix⟩, after)

def read (inFlow : Bool) (c : Cursor) : Except Fault (Tag × Cursor) := do
  let (tag, after) ← if c.peekAt 1 == some '<' then readVerbatim c else readShorthand c
  if endsWord after.peek || (inFlow && after.peek == some ',') then return (tag, after)
  else throw .tag

end Tag

inductive Directive where
  | version (major minor : Nat)
  | handle (name : String) (meaning : List UInt8)

namespace Directive

def number (c : Cursor) : Except Fault (Nat × Cursor) :=
  let (digits, after) := c.takeWhile Char.isDigit
  if digits.isEmpty || 9 < digits.length then .error .directive
  else .ok (digits.foldl (fun n d => 10 * n + (d.toNat - '0'.toNat)) 0, after)

def readVersion (c : Cursor) : Except Fault (Directive × Cursor) := do
  let (major, c) ← number (c.skipWhile isBlank)
  if c.peek != some '.' then
    throw .directive
  let (minor, c) ← number c.next
  return (.version major minor, c)

def readHandle (c : Cursor) : Except Fault (Directive × Cursor) := do
  let (name, c) ← Tag.readHandle (c.skipWhile isBlank)
  if name != ['!'] && !Tag.isHandle name then
    throw .directive
  if !c.peek.any isBlank then
    throw .directive
  let start := c.skipWhile isBlank
  let (meaning, c) ← Tag.readUri true [] start
  if c.index == start.index || !endsWord c.peek then
    throw .directive
  return (.handle (String.ofList name) meaning, c)

def read (c : Cursor) : Except Fault (Directive × Cursor) := do
  let (name, c) := c.next.takeWhile isNameChar
  if !endsWord c.peek then
    throw .directive
  let (directive, c) ← match String.ofList name with
    | "YAML" => readVersion c
    | "TAG" => readHandle c
    | _ => throw .directive
  let c := c.skipComment
  if c.peek.isSome && !c.atBreak then
    throw .directive
  return (directive, c.next)

end Directive

end Ownership.Yaml
