import Ownership.Json.Basic
import Ownership.Text.Basic

set_option autoImplicit false

/-!
# Services

What is known about a service besides its name: who owns it and how to reach them. A catalog maps
names to services, sorted by name; it never influences which rule accepts a path.
-/
namespace Ownership

inductive OwnerRef where
  | team (handle : String)
  | user (handle : String)
  | email (handle : String)
deriving DecidableEq, Repr

namespace OwnerRef

def handle : OwnerRef → String
  | .team s => s
  | .user s => s
  | .email s => s

def ofHandle (text : String) : OwnerRef :=
  let cs := Text.trim text.toList
  let handle := String.ofList cs
  if cs.head? = some '@' then .team handle
  else if '@' ∈ cs ∧ '.' ∈ cs ∧ ' ' ∉ cs then .email handle
  else .user handle

def toJson : OwnerRef → Json
  | .team s => .obj [("team", .str s)]
  | .user s => .obj [("user", .str s)]
  | .email s => .obj [("email", .str s)]

end OwnerRef

structure Contact where
  slack : Option String := none
  email : Option String := none
deriving DecidableEq, Repr

namespace Contact

def isEmpty (c : Contact) : Bool :=
  c.slack.isNone && c.email.isNone

def toJson (c : Contact) : Json :=
  .obj (Json.optional "slack" (c.slack.map .str) ++ Json.optional "email" (c.email.map .str))

end Contact

structure Service where
  description : Option String := none
  owners : List OwnerRef := []
  contact : Contact := {}
  docs : Option String := none
  runbook : Option String := none
  oncall : Option String := none
  dashboards : List String := []
  tags : List String := []
deriving DecidableEq, Repr

namespace Service

def ownersLine (s : Service) : String :=
  ", ".intercalate ((s.owners.map OwnerRef.handle).filter (· ≠ ""))

def hasContact (s : Service) : Bool :=
  !s.owners.isEmpty || !s.contact.isEmpty

def toJson (s : Service) : Json :=
  .obj <|
    Json.optional "description" (s.description.map .str) ++
    (if s.owners.isEmpty then [] else [("owners", .arr (s.owners.map OwnerRef.toJson))]) ++
    (if s.contact.isEmpty then [] else [("contact", s.contact.toJson)]) ++
    Json.optional "docs" (s.docs.map .str) ++
    Json.optional "runbook" (s.runbook.map .str) ++
    Json.optional "oncall" (s.oncall.map .str) ++
    (if s.dashboards.isEmpty then [] else [("dashboards", .strings s.dashboards)]) ++
    (if s.tags.isEmpty then [] else [("tags", .strings s.tags)])

end Service

/-- Services sorted by name, each name once. -/
structure Catalog where
  services : List (String × Service)

namespace Catalog

def empty : Catalog := ⟨[]⟩

def get? (c : Catalog) (name : String) : Option Service :=
  Json.getField? name c.services

def contains (c : Catalog) (name : String) : Bool :=
  (c.get? name).isSome

def insert (c : Catalog) (name : String) (s : Service) : Catalog :=
  ⟨Json.setField name s c.services⟩

def names (c : Catalog) : List String :=
  c.services.map Prod.fst

def size (c : Catalog) : Nat :=
  c.services.length

def isEmpty (c : Catalog) : Bool :=
  c.services.isEmpty

end Catalog

end Ownership
