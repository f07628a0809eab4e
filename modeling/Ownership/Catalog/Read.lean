import Ownership.Catalog.Basic
import Ownership.Datum

set_option autoImplicit false

/-!
# Reading services

Services and catalogs as they are written in data trees. A catalog is the table under `services`
if there is one, and otherwise the whole document.
-/
namespace Ownership

namespace OwnerRef

def mismatchMessage : String :=
  "data did not match any variant of untagged enum RawOwner"

structure Table where
  team : Option String := none
  user : Option String := none
  email : Option String := none

/-- The fields of an owner's table by name; a whole number names them by position. -/
def fieldName? : Datum → Option String
  | .text name => some name
  | .int 0 => some "team"
  | .int 1 => some "user"
  | .int 2 => some "email"
  | .int n => if n < 0 then none else some ""
  | _ => none

/-- `none` when the data cannot be a handle at all, `some none` when it is left open. -/
def handle? : Datum → Option (Option String)
  | .text s => some (some s)
  | .null => some none
  | _ => none

def Table.ofEntries? : Table → List String → List (Datum × Datum) → Option Table
  | t, _, [] => some t
  | t, seen, (key, value) :: entries =>
    match fieldName? key with
    | none => none
    | some name =>
      if name ∉ ["team", "user", "email"] then ofEntries? t seen entries
      else if name ∈ seen then none
      else
        match handle? value with
        | none => none
        | some handle =>
          let t := match name with
            | "team" => { t with team := handle }
            | "user" => { t with user := handle }
            | _ => { t with email := handle }
          ofEntries? t (name :: seen) entries

def Table.owner? : Table → Option OwnerRef
  | ⟨some handle, _, _⟩ => some (.team handle)
  | ⟨none, some handle, _⟩ => some (.user handle)
  | ⟨none, none, some handle⟩ => some (.email handle)
  | ⟨none, none, none⟩ => none

def read (d : Datum) : Except String OwnerRef :=
  if d.hasTag then .error "untagged and internally tagged enums do not support enum input"
  else
    match d with
    | .text s =>
      if (Text.trim s.toList).isEmpty then .error "owner must not be empty" else .ok (ofHandle s)
    | .table entries =>
      match Table.ofEntries? {} [] entries with
      | none => .error mismatchMessage
      | some table =>
        match table.owner? with
        | some owner => .ok owner
        | none => .error "owner entry must include one of: team, user, email"
    | _ => .error mismatchMessage

end OwnerRef

namespace Contact

def setField (style : DatumStyle) (c : Contact) (name : String) (d : Datum) :
    Except String Contact :=
  match name with
  | "slack" => (d.readOptionalText style).map fun slack => { c with slack }
  | "email" => (d.readOptionalText style).map fun email => { c with email }
  | _ => .ok c

def read (style : DatumStyle) (d : Datum) : Except String Contact :=
  d.readRecord style "struct Contact" ["slack", "email"] (setField style) {}

end Contact

namespace Service

def fieldNames : List String :=
  ["description", "owners", "contact", "docs", "runbook", "oncall", "dashboards", "tags"]

def setField (style : DatumStyle) (s : Service) (name : String) (d : Datum) :
    Except String Service :=
  match name with
  | "description" => (d.readOptionalText style).map fun description => { s with description }
  | "owners" => (d.readList style OwnerRef.read).map fun owners => { s with owners }
  | "contact" => (Contact.read style d).map fun contact => { s with contact }
  | "docs" => (d.readOptionalText style).map fun docs => { s with docs }
  | "runbook" => (d.readOptionalText style).map fun runbook => { s with runbook }
  | "oncall" => (d.readOptionalText style).map fun oncall => { s with oncall }
  | "dashboards" =>
    (d.readList style (Datum.readText style)).map fun dashboards => { s with dashboards }
  | "tags" => (d.readList style (Datum.readText style)).map fun tags => { s with tags }
  | _ => .ok s

def read (style : DatumStyle) (d : Datum) : Except String Service :=
  d.readRecord style "struct Service" fieldNames (setField style) {}

end Service

end Ownership
