import Ownership.Text.Basic

set_option autoImplicit false

/-!
# Tests on one byte

A wildcard segment is compared byte by byte in UTF-8. A class is written with characters and holds
bytes: a member stands for each byte of its form, and a range from `x` to `y` for the bytes of `x`
but the last, the bytes from there to the first of `y`, and the other bytes of `y`.
-/
namespace Ownership.Glob

/-- A class `[...]`: whether `!` or `^` negates it, and its ranges of characters. -/
structure ByteClass where
  negated : Bool
  ranges : List (Char × Char)
deriving DecidableEq, Repr

inductive ByteTest where
  | byte (b : UInt8)
  | any
  | oneOf (c : ByteClass)
deriving DecidableEq, Repr

def byteRanges (first last : Char) : List (UInt8 × UInt8) :=
  let xs := Text.bytes [first]
  let ys := Text.bytes [last]
  if first = last then xs.map fun b => (b, b)
  else
    xs.dropLast.map (fun b => (b, b)) ++
      (xs.getLastD 0, ys.headD 0) :: ys.tail.map fun b => (b, b)

def ByteClass.contains (c : ByteClass) (b : UInt8) : Bool :=
  let listed := c.ranges.any fun r =>
    (byteRanges r.1 r.2).any fun s => s.1 ≤ b && b ≤ s.2
  listed != c.negated

def ByteTest.passes : ByteTest → UInt8 → Bool
  | .byte a, b => a == b
  | .any, _ => true
  | .oneOf c, b => c.contains b

end Ownership.Glob
