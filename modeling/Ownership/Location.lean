import Ownership.Pattern.Basic

set_option autoImplicit false

/-!
# Locations and repository paths

A location is the text of a path in a file system, absolute when it starts with a slash. A
repository path is what rules are matched against: segments between single slashes, from the
repository root. `normalize` makes the second from whatever a user writes.
-/
namespace Ownership.Location

def isAbsolute (location : String) : Bool :=
  location.toList.head? == some '/'

/-- `rest` seen from `base`; an absolute location is the same from everywhere. -/
def join (base rest : String) : String :=
  if isAbsolute rest then rest
  else if base = "" || base.toList.getLast? = some '/' then base ++ rest
  else base ++ "/" ++ rest

def unquote (q : Char) : List Char → List Char
  | [] => []
  | c :: cs => if c = q ∧ cs.getLast? = some q then cs.dropLast else c :: cs

/-- The segments below `root` of an absolute path under it, and all of them otherwise. -/
def belowRoot (root : Option String) (absolute : Bool) (segments : List String) : List String :=
  match root with
  | some r =>
    let lead := pathSegments r
    if absolute && isAbsolute r && lead.isPrefixOf segments then segments.drop lead.length
    else segments
  | none => segments

/-- The repository path that a text means, if any segment is left of it. Blanks around it and two
pairs of quotes are dropped, and backslashes separate segments. -/
def normalize (root : Option String) (path : String) : Option String :=
  let cs := Pattern.unifySlashes (unquote '\'' (unquote '"' (Text.trim path.toList)))
  match belowRoot root (cs.head? == some '/') (pathSegments (String.ofList cs)) with
  | [] => none
  | segments => some ("/".intercalate segments)

def normalizeAll (root : Option String) (paths : List String) : List String :=
  (paths.filterMap (normalize root)).eraseDups

end Ownership.Location
