import Ownership.Decimal.Binary64

set_option autoImplicit false

/-!
# Decimals as text

Whole numbers in a base, and decimals with an optional point and exponent.
-/
namespace Ownership

def digitValue? (c : Char) : Option Nat :=
  if c.isDigit then some (c.toNat - '0'.toNat)
  else if 'a' ≤ c && c ≤ 'z' then some (c.toNat - 'a'.toNat + 10)
  else if 'A' ≤ c && c ≤ 'Z' then some (c.toNat - 'A'.toNat + 10)
  else none

def naturalOfDigits? (base : Nat) : List Char → Option Nat
  | [] => none
  | cs =>
    cs.foldlM
      (fun n c =>
        match digitValue? c with
        | some d => if d < base then some (base * n + d) else none
        | none => none)
      0

namespace Decimal

def readSign : List Char → Bool × List Char
  | '-' :: cs => (true, cs)
  | '+' :: cs => (false, cs)
  | cs => (false, cs)

def exponent? : List Char → Option Int
  | [] => some 0
  | c :: cs =>
    if c == 'e' || c == 'E' then
      let (negative, digits) := readSign cs
      (naturalOfDigits? 10 digits).map fun n => if negative then -(n : Int) else n
    else none

/-- Digits around an optional point, at least one in all, and an optional exponent. -/
def unsigned? (cs : List Char) : Option Decimal :=
  let whole := cs.takeWhile Char.isDigit
  let rest := cs.dropWhile Char.isDigit
  let (fraction, rest) := match rest with
    | '.' :: more => (more.takeWhile Char.isDigit, more.dropWhile Char.isDigit)
    | _ => ([], rest)
  match naturalOfDigits? 10 (whole ++ fraction), exponent? rest with
  | some digits, some exponent => some ⟨digits, exponent - fraction.length⟩
  | _, _ => none

def read? (cs : List Char) : Option (Bool × Decimal) :=
  let (negative, digits) := readSign cs
  (unsigned? digits).map fun d => (negative, d)

end Decimal

end Ownership
