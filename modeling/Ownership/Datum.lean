import Ownership.Json.Basic
import Ownership.Text.Quoted

set_option autoImplicit false

/-!
# Data trees

What a document says once its syntax is gone: scalars, lists, and tables whose keys may be any
data. A `DatumStyle` tells how a format treats such a tree when a value of a known shape is read
from it, and how it names what it finds instead.
-/
namespace Ownership

inductive Datum where
  | null
  | bool (b : Bool)
  | int (n : Int)
  | float (x : Binary64)
  | text (s : String)
  | list (items : List Datum)
  | table (entries : List (Datum × Datum))
  | tagged (tag : String) (value : Datum)

/-- How a format is read. `nullName` is its word for a missing value, `nullIsEmpty` lets that stand
for an empty list or table, and `listIsRecord` lets a list give the fields of a record in order. -/
structure DatumStyle where
  nullName : String
  floats : FloatFormat
  nullIsEmpty : Bool
  listIsRecord : Bool

def DatumStyle.json : DatumStyle := ⟨"null", .signed, false, true⟩

def DatumStyle.yaml : DatumStyle := ⟨"unit value", .plain, true, false⟩

namespace Datum

mutual

def ofJson : Json → Datum
  | .null => .null
  | .bool b => .bool b
  | .int n => .int n
  | .float x => .float x
  | .str s => .text s
  | .arr items => .list (ofItems items)
  | .obj fields =>
    .table ((Json.sortFields (ofFields fields)).map fun (key, value) => (.text key, value))

def ofItems : List Json → List Datum
  | [] => []
  | item :: items => ofJson item :: ofItems items

def ofFields : List (String × Json) → List (String × Datum)
  | [] => []
  | (key, value) :: fields => (key, ofJson value) :: ofFields fields

end

def untag : Datum → Datum
  | .tagged _ value => untag value
  | d => d

mutual

def hasTag : Datum → Bool
  | .tagged .. => true
  | .list items => itemsHaveTag items
  | .table entries => entriesHaveTag entries
  | _ => false

def itemsHaveTag : List Datum → Bool
  | [] => false
  | item :: items => hasTag item || itemsHaveTag items

def entriesHaveTag : List (Datum × Datum) → Bool
  | [] => false
  | (key, value) :: entries => hasTag key || hasTag value || entriesHaveTag entries

end

mutual

/-- Equality of keys: numbers as numbers, tables without regard to order. -/
def same : Datum → Datum → Bool
  | .null, .null => true
  | .bool a, .bool b => a == b
  | .int a, .int b => a == b
  | .float a, .float b => a.same b
  | .text a, .text b => a == b
  | .list as, .list bs => sameItems as bs
  | .table as, .table bs => as.length == bs.length && entriesIn as bs
  | .tagged s a, .tagged t b => s == t && same a b
  | _, _ => false

def sameItems : List Datum → List Datum → Bool
  | [], [] => true
  | a :: as, b :: bs => same a b && sameItems as bs
  | _, _ => false

def entriesIn : List (Datum × Datum) → List (Datum × Datum) → Bool
  | [], _ => true
  | (key, value) :: as, bs =>
    (bs.any fun (k, v) => same key k && same value v) && entriesIn as bs

end

def describe (style : DatumStyle) : Datum → String
  | .null => style.nullName
  | .bool b => "boolean `" ++ toString b ++ "`"
  | .int n => "integer `" ++ toString n ++ "`"
  | .float x => "floating point `" ++ style.floats.write x ++ "`"
  | .text s => "string " ++ Text.quote s
  | .list _ => "sequence"
  | .table _ => "map"
  | .tagged _ _ => "enum"

def mismatch {α : Type} (style : DatumStyle) (found : Datum) (expected : String) :
    Except String α :=
  .error ("invalid type: " ++ found.describe style ++ ", expected " ++ expected)

def readText (style : DatumStyle) (d : Datum) : Except String String :=
  match d.untag with
  | .text s => .ok s
  | other => mismatch style other "a string"

def readOptionalText (style : DatumStyle) : Datum → Except String (Option String)
  | .null => .ok none
  | d => (readText style d).map some

def readList {α : Type} (style : DatumStyle) (read : Datum → Except String α) (d : Datum) :
    Except String (List α) :=
  match d.untag with
  | .list items => items.mapM read
  | .null => if style.nullIsEmpty then .ok [] else mismatch style .null "a sequence"
  | other => mismatch style other "a sequence"

/-- Reads the fields of a record from `start` on. Tags do not tell fields apart, so the names in
`seen`, as far as they are fields, may not come again. -/
def readFields {α : Type} (style : DatumStyle) (names : List String)
    (set : α → String → Datum → Except String α) :
    List String → α → List (Datum × Datum) → Except String α
  | _, record, [] => .ok record
  | seen, record, (key, value) :: entries =>
    match key.untag with
    | .text name =>
      if name ∈ seen && name ∈ names then .error ("duplicate field `" ++ name ++ "`")
      else do readFields style names set (name :: seen) (← set record name value) entries
    | other => mismatch style other "field identifier"

/-- Reads a record from `start` on: `set` puts one field, and leaves unknown ones alone. -/
def readRecord {α : Type} (style : DatumStyle) (expected : String) (names : List String)
    (set : α → String → Datum → Except String α) (start : α) (d : Datum) : Except String α :=
  match d.untag with
  | .table entries => readFields style names set [] start entries
  | .list items =>
    if style.listIsRecord then do
      let record ← (names.zip items).foldlM
        (fun record (name, value) => set record name value) start
      if items.length ≤ names.length then return record
      else
        .error ("invalid length " ++ toString items.length ++ ", expected fewer elements in array")
    else mismatch style (.list items) expected
  | .null => if style.nullIsEmpty then .ok start else mismatch style .null expected
  | other => mismatch style other expected

end Datum

end Ownership
