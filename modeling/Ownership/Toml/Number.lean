import Ownership.Json.Basic
import Ownership.Toml.Text

set_option autoImplicit false

/-!
# Numbers, dates and times in TOML

Whole numbers have 64 bits. A number that is not finite has no place among JSON values and becomes
null; a date or a time becomes an object with its text.
-/
namespace Ownership.Toml

/-- The digits after a first one. An underscore stands between two digits. -/
def moreDigits (isDigit : Char → Bool) : List Char → Except Fault (List Char × List Char)
  | '_' :: c :: cs =>
    if isDigit c then (moreDigits isDigit cs).map fun (ds, rest) => (c :: ds, rest)
    else .error .number
  | c :: cs =>
    if isDigit c then (moreDigits isDigit cs).map fun (ds, rest) => (c :: ds, rest)
    else if c == '_' then .error .number
    else .ok ([], c :: cs)
  | [] => .ok ([], [])

def readDigits (isDigit : Char → Bool) : List Char → Except Fault (List Char × List Char)
  | c :: cs =>
    if isDigit c then (moreDigits isDigit cs).map fun (ds, rest) => (c :: ds, rest)
    else .error .number
  | [] => .error .number

def readWhole : List Char → Except Fault (List Char × List Char)
  | '0' :: cs => .ok (['0'], cs)
  | cs => readDigits Char.isDigit cs

def integer (n : Int) (rest : List Char) : Except Fault (Json × List Char) :=
  if -(Int.pow 2 63) ≤ n && n < Int.pow 2 63 then .ok (.int n, rest) else .error .number

def readBased (base : Nat) (isDigit : Char → Bool) (cs : List Char) :
    Except Fault (Json × List Char) := do
  let (digits, rest) ← readDigits isDigit cs
  match naturalOfDigits? base digits with
  | some n => integer n rest
  | none => throw .number

def readExponent : List Char → Except Fault (List Char × List Char)
  | c :: cs =>
    if c == 'e' || c == 'E' then
      let (sign, digits) := match cs with
        | '-' :: ds => (['-'], ds)
        | '+' :: ds => ([], ds)
        | _ => ([], cs)
      (readDigits Char.isDigit digits).map fun (ds, rest) => ('e' :: sign ++ ds, rest)
    else .ok ([], c :: cs)
  | [] => .ok ([], [])

/-- A number with a point or an exponent. Too large a one is refused. -/
def float (negative : Bool) (text rest : List Char) : Except Fault (Json × List Char) :=
  match Decimal.unsigned? text with
  | some d =>
    match Binary64.ofDecimal negative d with
    | .infinite true => .ok (.null, rest)
    | .infinite false => .error .number
    | x => .ok (.float x, rest)
  | none => .error .number

def readDecimal (negative : Bool) (cs : List Char) : Except Fault (Json × List Char) := do
  let (whole, rest) ← readWhole cs
  let (fraction, rest) ← match rest with
    | '.' :: rest => (readDigits Char.isDigit rest).map fun (ds, rest) => ('.' :: ds, rest)
    | _ => .ok ([], rest)
  let (exponent, rest) ← readExponent rest
  if fraction.isEmpty && exponent.isEmpty then
    match naturalOfDigits? 10 whole with
    | some n => integer (if negative then -(n : Int) else n) rest
    | none => throw .number
  else float negative (whole ++ fraction ++ exponent) rest

def readNumber (cs : List Char) : Except Fault (Json × List Char) :=
  match cs with
  | '0' :: 'x' :: rest => readBased 16 isHexDigit rest
  | '0' :: 'o' :: rest => readBased 8 (fun c => '0' ≤ c && c ≤ '7') rest
  | '0' :: 'b' :: rest => readBased 2 (fun c => c == '0' || c == '1') rest
  | _ =>
    let (negative, body) := Decimal.readSign cs
    match body with
    | 'i' :: 'n' :: 'f' :: rest => .ok (.null, rest)
    | 'n' :: 'a' :: 'n' :: rest => .ok (.null, rest)
    | _ => readDecimal negative body

def fixed? (count : Nat) (cs : List Char) : Option Nat :=
  let digits := cs.take count
  if digits.length == count && digits.all Char.isDigit then naturalOfDigits? 10 digits else none

def readField (low high : Nat) (cs : List Char) : Except Fault (Nat × List Char) :=
  match fixed? 2 cs with
  | some n => if low ≤ n && n ≤ high then .ok (n, cs.drop 2) else .error .date
  | none => .error .date

def expect (c : Char) : List Char → Except Fault (List Char)
  | d :: cs => if d == c then .ok cs else .error .date
  | [] => .error .date

def isLeapYear (year : Nat) : Bool :=
  year % 4 == 0 && (year % 100 != 0 || year % 400 == 0)

def daysInMonth (year month : Nat) : Nat :=
  if month == 2 then (if isLeapYear year then 29 else 28)
  else if month ∈ [4, 6, 9, 11] then 30
  else 31

def readDate (year : Nat) (cs : List Char) : Except Fault (List Char) := do
  let (month, cs) ← readField 1 12 cs
  let (day, cs) ← readField 1 31 (← expect '-' cs)
  if day ≤ daysInMonth year month then return cs else throw .date

def startsTime (cs : List Char) : Bool :=
  (fixed? 2 cs).any (· ≤ 23) && cs[2]? == some ':'

def readTime (cs : List Char) : Except Fault (List Char) := do
  let (_, cs) ← readField 0 59 cs
  let (_, cs) ← readField 0 60 (← expect ':' cs)
  match cs with
  | '.' :: c :: rest => return if c.isDigit then rest.dropWhile Char.isDigit else cs
  | _ => return cs

def readOffset : List Char → Except Fault (List Char)
  | c :: cs =>
    if c == 'Z' || c == 'z' then .ok cs
    else if c == '+' || c == '-' then do
      let (_, cs) ← readField 0 23 cs
      let (_, cs) ← readField 0 59 (← expect ':' cs)
      return cs
    else .ok (c :: cs)
  | [] => .ok []

def isTimeMark (c : Char) : Bool :=
  c == 'T' || c == 't' || c == ' '

def moment? (cs : List Char) : Except Fault (Option (List Char)) := do
  match fixed? 4 cs, cs.drop 4 with
  | some year, '-' :: rest =>
    match ← readDate year rest with
    | mark :: time =>
      if isTimeMark mark && startsTime time then
        return some (← readOffset (← readTime (time.drop 3)))
      else return some (mark :: time)
    | [] => return some []
  | _, _ => if startsTime cs then return some (← readTime (cs.drop 3)) else return none

def momentKey : String := "$__toml_private_datetime"

def readScalar (cs : List Char) : Except Fault (Json × List Char) := do
  match ← moment? cs with
  | some rest =>
    let text := cs.take (cs.length - rest.length)
    return (.obj [(momentKey, .str (String.ofList text))], rest)
  | none => readNumber cs

end Ownership.Toml
