import Ownership.Text.Printable

set_option autoImplicit false

/-!
# Quoted text

How a text is shown inside a message: in double quotes, with everything escaped that could not be
read back from a line of text.
-/
namespace Ownership.Text

/-- One character in quotes; a number is in hexadecimal, without padding. -/
def escapeChar (c : Char) : List Char :=
  match c with
  | '\x00' => ['\\', '0']
  | '\t' => ['\\', 't']
  | '\r' => ['\\', 'r']
  | '\n' => ['\\', 'n']
  | '\\' => ['\\', '\\']
  | '"' => ['\\', '"']
  | _ =>
    if extendsPrevious c || !isPrintable c then
      '\\' :: 'u' :: '\x7b' :: (Nat.toDigits 16 c.toNat ++ ['\x7d'])
    else [c]

def quote (s : String) : String :=
  String.ofList ('"' :: (s.toList.flatMap escapeChar ++ ['"']))

end Ownership.Text
