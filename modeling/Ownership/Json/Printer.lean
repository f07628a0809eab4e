import Ownership.Json.Basic

set_option autoImplicit false

/-!
# JSON text

The indented form: two blanks a level, a line for each item and field, `[]` and `{}` when empty.
Only quotes, backslashes and control characters are escaped.
-/
namespace Ownership.Json

def controlDigits (n : Nat) : List Char :=
  [Nat.digitChar (n / 16), Nat.digitChar (n % 16)]

def escapeChar : Char → List Char
  | '"' => ['\\', '"']
  | '\\' => ['\\', '\\']
  | '\x08' => ['\\', 'b']
  | '\x0c' => ['\\', 'f']
  | '\n' => ['\\', 'n']
  | '\r' => ['\\', 'r']
  | '\t' => ['\\', 't']
  | c => if c.toNat < 0x20 then '\\' :: 'u' :: '0' :: '0' :: controlDigits c.toNat else [c]

def quote (s : String) : String :=
  String.ofList ('"' :: (s.toList.flatMap escapeChar ++ ['"']))

def indentation (depth : Nat) : String :=
  String.ofList (List.replicate (2 * depth) ' ')

/-- JSON has no text for a number that is not finite. -/
def numberText : Binary64 → String
  | .finite negative mantissa exponent =>
    FloatFormat.signed.write (.finite negative mantissa exponent)
  | _ => "null"

mutual

def prettyAt (depth : Nat) : Json → String
  | .null => "null"
  | .bool b => if b then "true" else "false"
  | .int n => toString n
  | .float x => numberText x
  | .str s => quote s
  | .arr [] => "[]"
  | .arr (item :: items) =>
    "[\n" ++ indentation (depth + 1) ++ prettyAt (depth + 1) item ++
      prettyItems (depth + 1) items ++ "\n" ++ indentation depth ++ "]"
  | .obj [] => "\x7b\x7d"
  | .obj ((key, value) :: fields) =>
    "\x7b\n" ++ indentation (depth + 1) ++ quote key ++ ": " ++ prettyAt (depth + 1) value ++
      prettyFields (depth + 1) fields ++ "\n" ++ indentation depth ++ "\x7d"

def prettyItems (depth : Nat) : List Json → String
  | [] => ""
  | item :: items =>
    ",\n" ++ indentation depth ++ prettyAt depth item ++ prettyItems depth items

def prettyFields (depth : Nat) : List (String × Json) → String
  | [] => ""
  | (key, value) :: fields =>
    ",\n" ++ indentation depth ++ quote key ++ ": " ++ prettyAt depth value ++
      prettyFields depth fields

end

def pretty (v : Json) : String :=
  prettyAt 0 v

end Ownership.Json
