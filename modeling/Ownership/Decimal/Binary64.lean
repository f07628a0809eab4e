set_option autoImplicit false

/-!
# Double-precision numbers

A number in the binary64 format as a value of its own, so that reading and showing decimals is
plain arithmetic on naturals. `ofDecimal` rounds to the nearest number, ties to the even one;
`shortest` finds the fewest decimal digits that read back.
-/
namespace Ownership

/-- A finite number is `mantissa * 2 ^ exponent`; with the sign apart there are two zeros. -/
inductive Binary64 where
  | nan
  | infinite (negative : Bool)
  | finite (negative : Bool) (mantissa : Nat) (exponent : Int)
deriving DecidableEq, Repr

/-- Decimal digits without leading zeros and the power of ten that the last one counts. -/
structure Decimal where
  digits : Nat
  exponent : Int
deriving DecidableEq, Repr

namespace Binary64

def zero (negative : Bool) : Binary64 :=
  .finite negative 0 (-1074)

/-- Numbers are equal as numbers: the zeros are, and for keys a NaN is the same as a NaN. -/
def same : Binary64 → Binary64 → Bool
  | .finite s m e, .finite t n f => (m == 0 && n == 0) || (s == t && m == n && e == f)
  | x, y => x == y

/-- `num / den * 2 ^ -shift`, the quotient rounded to the nearest natural, ties to even. -/
def roundDiv (num den : Nat) (shift : Int) : Nat :=
  let a := if shift < 0 then num * Nat.pow 2 shift.natAbs else num
  let b := if shift < 0 then den else den * Nat.pow 2 shift.natAbs
  let q := a / b
  let r := a % b
  if 2 * r < b || (2 * r == b && q % 2 == 0) then q else q + 1

/-- The nearest number to `num / den`, which is positive. -/
def ofRatio (negative : Bool) (num den : Nat) : Binary64 :=
  let guess : Int := (num.log2 : Int) - (den.log2 : Int) - 52
  let fits (e : Int) : Bool :=
    if e < 0 then den * Nat.pow 2 52 ≤ num * Nat.pow 2 e.natAbs
    else den * Nat.pow 2 (52 + e.natAbs) ≤ num
  let e := max (if fits guess then guess else guess - 1) (-1074)
  let m := roundDiv num den e
  let (m, e) := if m == Nat.pow 2 53 then (Nat.pow 2 52, e + 1) else (m, e)
  if e > 971 then .infinite negative else .finite negative m e

def ofDecimal (negative : Bool) (d : Decimal) : Binary64 :=
  if d.digits == 0 then zero negative
  else
    let size : Int := (Nat.toDigits 10 d.digits).length + d.exponent
    if size > 310 then .infinite negative
    else if size < -330 then zero negative
    else if d.exponent < 0 then ofRatio negative d.digits (Nat.pow 10 d.exponent.natAbs)
    else ofRatio negative (d.digits * Nat.pow 10 d.exponent.natAbs) 1

def ofBits (bits : UInt64) : Binary64 :=
  let n := bits.toNat
  let negative := n / Nat.pow 2 63 == 1
  let e : Nat := n / Nat.pow 2 52 % Nat.pow 2 11
  let m := n % Nat.pow 2 52
  if e == 2047 then (if m == 0 then .infinite negative else .nan)
  else if e == 0 then .finite negative m (-1074)
  else .finite negative (m + Nat.pow 2 52) ((e : Int) - 1075)

def scaled (mantissa : Nat) (exponent place : Int) : Nat × Nat :=
  let num := if exponent < 0 then mantissa else mantissa * Nat.pow 2 exponent.natAbs
  let den := if exponent < 0 then Nat.pow 2 exponent.natAbs else 1
  if place < 0 then (num * Nat.pow 10 place.natAbs, den) else (num, den * Nat.pow 10 place.natAbs)

/-- The power of ten of the leading digit, found among the candidates next to its estimate. -/
def leadingPlace (mantissa : Nat) (exponent : Int) : Int :=
  let (num, den) := scaled mantissa exponent 0
  let guess : Int := ((num.log2 : Int) - (den.log2 : Int)) * 30103 / 100000
  let reaches (p : Int) : Bool :=
    let (a, b) := scaled mantissa exponent p
    b ≤ a
  if reaches (guess + 2) then guess + 2
  else if reaches (guess + 1) then guess + 1
  else if reaches guess then guess
  else if reaches (guess - 1) then guess - 1
  else guess - 2

/-- The nearer of the two decimals with `count` digits that enclose the number, if it reads back;
else the other one, if that reads back. -/
def withDigits? (mantissa : Nat) (exponent : Int) (count : Nat) : Option Decimal :=
  let place := leadingPlace mantissa exponent - count + 1
  let (num, den) := scaled mantissa exponent place
  let low := num / den
  let upFirst := 2 * (num % den) > den || (2 * (num % den) == den && low % 2 == 1)
  let candidates := if upFirst then [low + 1, low] else [low, low + 1]
  (candidates.map fun digits => Decimal.mk digits place).find? fun d =>
    ofDecimal false d == .finite false mantissa exponent

def dropZeros : Nat → Decimal → Decimal
  | 0, d => d
  | fuel + 1, d =>
    if d.digits != 0 && d.digits % 10 == 0 then dropZeros fuel ⟨d.digits / 10, d.exponent + 1⟩
    else d

/-- The fewest digits that read back as the number. -/
def shortest (mantissa : Nat) (exponent : Int) : Decimal :=
  let found := (List.range 17).findSome? fun n => withDigits? mantissa exponent (n + 1)
  dropZeros 20 (found.getD ⟨mantissa, 0⟩)

end Binary64

/-- Which decimals are written out and which get an exponent: those whose leading digit counts at
least `10 ^ least` and below `10 ^ most` are written out. With `plus` a positive exponent has its
sign. -/
structure FloatFormat where
  least : Option Int
  most : Option Int
  plus : Bool
  nan : String
  infinite : String

namespace FloatFormat

def plain : FloatFormat := ⟨none, none, false, "NaN", "inf"⟩

def compact : FloatFormat := ⟨some (-5), some 16, false, ".nan", ".inf"⟩

def signed : FloatFormat := { compact with plus := true }

def writeOut (digits : List Char) (exponent : Int) : List Char :=
  let point : Int := digits.length + exponent
  if exponent ≥ 0 then digits ++ List.replicate exponent.natAbs '0' ++ ['.', '0']
  else if point > 0 then digits.take point.natAbs ++ '.' :: digits.drop point.natAbs
  else '0' :: '.' :: (List.replicate point.natAbs '0' ++ digits)

def writeExponent (plus : Bool) (digits : List Char) (exponent : Int) : List Char :=
  let place := digits.length + exponent - 1
  (digits.take 1 ++ (if digits.length == 1 then [] else '.' :: digits.drop 1)) ++
    'e' :: ((if plus && place ≥ 0 then ['+'] else []) ++ (toString place).toList)

def write (f : FloatFormat) : Binary64 → String
  | .nan => f.nan
  | .infinite negative => (if negative then "-" else "") ++ f.infinite
  | .finite negative mantissa exponent =>
    let body :=
      if mantissa == 0 then ['0', '.', '0']
      else
        let d := Binary64.shortest mantissa exponent
        let digits := Nat.toDigits 10 d.digits
        let place : Int := digits.length + d.exponent - 1
        if f.least.all (· ≤ place) && f.most.all (place < ·) then writeOut digits d.exponent
        else writeExponent f.plus digits d.exponent
    (if negative then "-" else "") ++ String.ofList body

end FloatFormat

end Ownership
