import Ownership.Json.Basic

set_option autoImplicit false

/-!
# Merging layers

Objects are merged key by key; anything else is replaced by the layer above.
-/
namespace Ownership.Json

mutual

def merge (base upper : Json) : Json :=
  match upper with
  | .obj fields =>
    match base with
    | .obj old => .obj (mergeFields old fields)
    | _ => .obj fields
  | other => other

def mergeFields (base upper : List (String × Json)) : List (String × Json) :=
  match upper with
  | [] => base
  | (key, value) :: rest =>
    let merged := match getField? key base with
      | some old => merge old value
      | none => value
    mergeFields (setField key merged base) rest

end

/-- The last layer has the highest precedence. -/
def mergeLayers (layers : List Json) : Json :=
  layers.foldl merge .null

end Ownership.Json
