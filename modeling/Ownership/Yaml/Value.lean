import Ownership.Datum
import Ownership.Decimal.Text
import Ownership.Yaml.Cursor

set_option autoImplicit false

/-!
# Values of plain scalars

What a scalar without quotes means: nothing, a truth value, a number, or else its text. Digits
after a leading zero are text. A whole number has to fit into 64 bits; one that would fit into 128
bits is refused, and beyond that a decimal one is a fractional number.
-/
namespace Ownership.Yaml

def isNull (s : String) : Bool :=
  s ∈ ["null", "Null", "NULL", "~"]

def boolean? (s : String) : Option Bool :=
  if s ∈ ["true", "True", "TRUE"] then some true
  else if s ∈ ["false", "False", "FALSE"] then some false
  else none

/-- Digits with a zero in front of them, which are no number. -/
def isPadded (cs : List Char) : Bool :=
  match (Decimal.readSign cs).2 with
  | '0' :: rest => !rest.isEmpty && rest.all Char.isDigit
  | _ => false

def natural? : List Char → Option Nat
  | '0' :: 'x' :: digits => naturalOfDigits? 16 digits
  | '0' :: 'o' :: digits => naturalOfDigits? 8 digits
  | '0' :: 'b' :: digits => naturalOfDigits? 2 digits
  | digits => if isPadded digits then none else naturalOfDigits? 10 digits

def integer? (cs : List Char) : Option Int :=
  let (negative, digits) := Decimal.readSign cs
  (natural? digits).map fun n => if negative then -(n : Int) else n

def infinite? : String → Option Binary64
  | ".inf" | ".Inf" | ".INF" | "+.inf" | "+.Inf" | "+.INF" => some (.infinite false)
  | "-.inf" | "-.Inf" | "-.INF" => some (.infinite true)
  | ".nan" | ".NaN" | ".NAN" => some .nan
  | _ => none

/-- A number; only the words for the infinite ones and for what is no number give those. -/
def float? (s : String) : Option Binary64 :=
  match infinite? s with
  | some x => some x
  | none =>
    match Decimal.read? s.toList with
    | some (negative, d) =>
      match Binary64.ofDecimal negative d with
      | .finite negative mantissa exponent => some (.finite negative mantissa exponent)
      | _ => none
    | none => none

/-- A whole number that fits, or `none` when it is left to be read otherwise. -/
def readInteger (s : String) : Except Fault (Option Int) :=
  match integer? s.toList with
  | some n =>
    if -(Int.pow 2 63) ≤ n && n < Int.pow 2 64 then .ok (some n)
    else if -(Int.pow 2 127) ≤ n && n < Int.pow 2 128 then .error .number
    else .ok none
  | none => .ok none

def plainValue (s : String) : Except Fault Datum :=
  if s == "" || isNull s then .ok .null
  else
    match boolean? s with
    | some b => .ok (.bool b)
    | none => do
      match ← readInteger s with
      | some n => return .int n
      | none =>
        if isPadded s.toList then return .text s
        else
          match float? s with
          | some x => return .float x
          | none => return .text s

end Ownership.Yaml
