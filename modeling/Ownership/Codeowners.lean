import Ownership.Pattern.Basic
import Ownership.Text.Lower

set_option autoImplicit false

/-!
# Rules from a CODEOWNERS file

A CODEOWNERS line maps a pattern to owners. It becomes a rule for a service that is named after
the pattern's last literal segment, or else after its first owner.
-/
namespace Ownership.Codeowners

def locations : List String :=
  ["CODEOWNERS", ".github/CODEOWNERS", "docs/CODEOWNERS"]

def fallbackService : String := "service"

def isLiteral (segment : List Char) : Bool :=
  segment ≠ [] && segment.all fun c => c ∉ ['*', '?', '[', ']']

/-- The last literal segment of a pattern, in lower case. -/
def serviceOfPattern? (pattern : String) : Option String :=
  let segments := Text.splitAll (· == '/') (Pattern.unifySlashes (Text.trim pattern.toList))
  ((segments.filter isLiteral).getLast?).map fun segment => String.ofList (Text.lower segment)

def dropAt : List Char → List Char
  | '@' :: cs => cs
  | cs => cs

def afterSlash (cs : List Char) : List Char :=
  match cs.dropWhile (· != '/') with
  | _ :: rest => rest
  | [] => cs

/-- The name of an owner: `@org/team-name` is `team_name`. -/
def serviceOfOwner? (owner : String) : Option String :=
  let name := afterSlash (dropAt (Text.trim owner.toList))
  match Text.lower (name.map fun c => if c = '-' then '_' else c) with
  | [] => none
  | lowered => some (String.ofList lowered)

def serviceOf (pattern owner : String) : String :=
  ((serviceOfPattern? pattern).or (serviceOfOwner? owner)).getD fallbackService

def convertLine? (raw : List Char) : Option String :=
  match Text.columns raw with
  | ('#' :: _) :: _ => none
  | pattern :: owner :: _ =>
    let pattern := String.ofList pattern
    some (pattern ++ "\t" ++ serviceOf pattern (String.ofList owner))
  | _ => none

def convert (text : String) : String :=
  Text.joinLines
    (["# Generated from CODEOWNERS", "# pattern\tservice"] ++
      (Text.lines text.toList).filterMap convertLine? ++ [""])

end Ownership.Codeowners
