import Ownership.Decimal.Binary64

set_option autoImplicit false

/-!
# JSON values

Values with whole and fractional numbers apart. The fields of an object keep the order of their
list; `setField` keeps a list that is sorted by key sorted.
-/
namespace Ownership

inductive Json where
  | null
  | bool (b : Bool)
  | int (n : Int)
  | float (x : Binary64)
  | str (s : String)
  | arr (items : List Json)
  | obj (fields : List (String × Json))

namespace Json

def setField {α : Type} (key : String) (value : α) : List (String × α) → List (String × α)
  | [] => [(key, value)]
  | (k, v) :: rest =>
    if key < k then (key, value) :: (k, v) :: rest
    else if key = k then (key, value) :: rest
    else (k, v) :: setField key value rest

/-- The pairs sorted by key; of equal keys the last one counts. -/
def sortFields {α : Type} (fields : List (String × α)) : List (String × α) :=
  fields.foldl (fun sorted field => setField field.1 field.2 sorted) []

def getField? {α : Type} (key : String) : List (String × α) → Option α
  | [] => none
  | (k, v) :: rest => if key = k then some v else getField? key rest

def at? : Json → List String → Option Json
  | v, [] => some v
  | .obj fields, key :: path =>
    match getField? key fields with
    | some v => at? v path
    | none => none
  | _, _ :: _ => none

def ofOption {α : Type} (f : α → Json) : Option α → Json
  | some a => f a
  | none => .null

def ofNat (n : Nat) : Json :=
  .int n

def strings (items : List String) : Json :=
  .arr (items.map .str)

def optional (key : String) : Option Json → List (String × Json)
  | some v => [(key, v)]
  | none => []

end Json

end Ownership
