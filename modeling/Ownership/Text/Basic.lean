set_option autoImplicit false

/-!
# Text as characters

Blank characters, trimming, and the two ways this project cuts a text into pieces: at separators
and into lines. Everything works on `List Char`; callers convert with `String.toList` and
`String.ofList`.
-/
namespace Ownership.Text

/-- The Unicode property `White_Space`. -/
def isBlank (c : Char) : Bool :=
  let n := c.toNat
  (9 ≤ n && n ≤ 13) || n == 0x20 || n == 0x85 || n == 0xA0 || n == 0x1680 ||
    (0x2000 ≤ n && n ≤ 0x200A) || n == 0x2028 || n == 0x2029 || n == 0x202F || n == 0x205F ||
    n == 0x3000

def dropEndWhile (p : Char → Bool) (cs : List Char) : List Char :=
  (cs.reverse.dropWhile p).reverse

def trim (cs : List Char) : List Char :=
  dropEndWhile isBlank (cs.dropWhile isBlank)

/-- The pieces between separators: one more than there are separators, some perhaps empty. -/
def splitAll (p : Char → Bool) (cs : List Char) : List (List Char) :=
  cs.foldr
    (fun c pieces =>
      if p c then [] :: pieces
      else match pieces with
        | [] => [[c]]
        | piece :: rest => (c :: piece) :: rest)
    [[]]

def columns (cs : List Char) : List (List Char) :=
  (splitAll isBlank cs).filter (fun piece => !piece.isEmpty)

def dropReturn (line : List Char) : List Char :=
  match line.getLast? with
  | some '\r' => line.dropLast
  | _ => line

/-- Every piece but the last was ended by a line feed; an empty last piece is no line. -/
def endLines : List (List Char) → List (List Char)
  | [] => []
  | [last] => if last.isEmpty then [] else [last]
  | line :: rest => dropReturn line :: endLines rest

/-- Lines end in `\n` or `\r\n`; the last may lack its end, and then keeps a `\r`. -/
def lines (cs : List Char) : List (List Char) :=
  endLines (splitAll (· == '\n') cs)

def bytes (cs : List Char) : List UInt8 :=
  cs.flatMap String.utf8EncodeChar

def joinLines (lines : List String) : String :=
  "\n".intercalate lines

end Ownership.Text
