import Ownership.Catalog.Read
import Ownership.Yaml.Document
import Ownership.Yaml.Printer

set_option autoImplicit false

/-!
# Catalog documents

A catalog is a table of services by name: the table under `services` if there is one, and otherwise
the whole document. Names are texts that are not blank; a service is a table or left open.
-/
namespace Ownership

inductive CatalogError where
  | malformed (fault : Yaml.Fault)
  | notTable
  | invalid (name reason : String)
  | unreadable (location cause : String)
deriving DecidableEq, Repr

def CatalogError.message : CatalogError → String
  | .malformed fault => "Failed to parse services file: " ++ fault.message
  | .notTable => "Services file must be a mapping of service names"
  | .invalid name reason => "Service '" ++ name ++ "': " ++ reason
  | .unreadable location cause => "Failed to read services file " ++ location ++ ": " ++ cause

namespace Catalog

def servicesKey : Datum := .text "services"

/-- Takes an entry out; the last entry moves into its place. -/
def takeEntry? (key : Datum) (entries : List (Datum × Datum)) :
    Option (Datum × List (Datum × Datum)) :=
  match entries.span fun (k, _) => !key.same k with
  | (_, []) => none
  | (before, (_, value) :: after) =>
    match after.getLast? with
    | some last => some (value, before ++ last :: after.dropLast)
    | none => some (value, before)

/-- The entries that are services, in the order in which they are read. A `services` entry that is
no table is an entry like the others, and comes last. -/
def serviceEntries (entries : List (Datum × Datum)) : List (Datum × Datum) :=
  match takeEntry? servicesKey entries with
  | some (.table services, _) => services
  | some (other, rest) => rest ++ [(servicesKey, other)]
  | none => entries

def readName : Datum → Except CatalogError String
  | .text name =>
    if (Text.trim name.toList).isEmpty then refuse (.text name) else .ok name
  | d => refuse d
where
  refuse (d : Datum) : Except CatalogError String :=
    .error (.invalid ((Yaml.write d).getD "") "service name must be a non-empty string")

def readService (name : String) : Datum → Except CatalogError Service
  | .null => .ok {}
  | .table entries => (Service.read .yaml (.table entries)).mapError (.invalid name)
  | _ => .error (.invalid name "expected a mapping")

def readEntries : Catalog → List (Datum × Datum) → Except CatalogError Catalog
  | c, [] => .ok c
  | c, (key, value) :: entries => do
    let name ← readName key
    let service ← readService name value
    readEntries (c.insert name service) entries

def ofDatum : Datum → Except CatalogError Catalog
  | .null => .ok .empty
  | .table entries => readEntries .empty (serviceEntries entries)
  | _ => .error .notTable

def parse (text : String) : Except CatalogError Catalog :=
  match Yaml.parse text with
  | .ok d => ofDatum d
  | .error fault => .error (.malformed fault)

end Catalog

end Ownership
