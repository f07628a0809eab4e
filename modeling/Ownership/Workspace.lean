import Ownership.Catalog.Document
import Ownership.Codeowners
import Ownership.Listing
import Ownership.Report.Impact
import Ownership.Report.Lint
import Ownership.Report.Owner
import Ownership.Settings.Read
import Ownership.Toml.Document

set_option autoImplicit false

/-!
# Workspaces

A repository's rules, services and settings as they are read from a directory tree. Loading stops
at the first bad line of the rules file, or, if it is lenient, keeps the bad lines apart.
-/
namespace Ownership

inductive InitError where
  | notFound
  | occupied (location : String)
  | access (location : String) (cause : AccessError)
deriving DecidableEq, Repr

def InitError.message : InitError → String
  | .notFound => "CODEOWNERS file not found (use --codeowners PATH)"
  | .occupied location => location ++ " already exists (use --force to overwrite)"
  | .access location cause => "Failed to access " ++ location ++ ": " ++ cause.message

inductive CommandError where
  | missingRules (location : String)
  | unreadable (location : String) (cause : AccessError)
  | rules (e : LineError)
  | settings (e : SettingsError)
  | catalog (e : CatalogError)
  | git (e : GitError)
  | listing (e : ListingError)
  | init (e : InitError)
  | input (cause : AccessError)
  | invalidPath (path : String)
deriving DecidableEq, Repr

def CommandError.message : CommandError → String
  | .missingRules location => "SERVICEOWNERS file not found: " ++ location
  | .unreadable location cause => "Failed to read " ++ location ++ ": " ++ cause.message
  | .rules e => "Parse error: " ++ e.message
  | .settings e => e.message
  | .catalog e => e.message
  | .git e => "Git error: " ++ e.message
  | .listing e => e.message
  | .init e => e.message
  | .input cause => "Failed to read stdin: " ++ cause.message
  | .invalidPath path => "Invalid path: " ++ Text.quote path

namespace EffectiveSettings

def fileName : String := ".serviceowners.toml"

/-- The layer that a settings file gives, with its location. A file that is missing gives none. -/
def readLayer (t : Tree) (location : String) : Except SettingsError (Option (String × Json)) :=
  if t.occupied location then
    match t.readText location with
    | .error cause => .error (.unreadable location cause.message)
    | .ok text =>
      match Toml.parse text with
      | .error fault => .error (.malformed location fault.message)
      | .ok layer => .ok (some (location, layer))
  else .ok none

def load (t : Tree) (root : String) (overrides : Overrides) :
    Except SettingsError EffectiveSettings := do
  build (← readLayer t (Location.join root fileName)) overrides

end EffectiveSettings

/-- The catalog at a location; a missing file is an empty catalog. -/
def Catalog.load (t : Tree) (location : String) : Except CatalogError Catalog :=
  if t.occupied location then
    match t.readText location with
    | .error cause => .error (.unreadable location cause.message)
    | .ok text => parse text
  else .ok .empty

structure Workspace where
  root : String
  settings : Settings
  index : Index
  rejected : List LineError
  catalog : Catalog

namespace Workspace

def rulesText (t : Tree) (root : String) (settings : Settings) : Except CommandError String :=
  let location := Location.join root settings.rulesFile
  if t.isFile location then (t.readText location).mapError (.unreadable location)
  else .error (.missingRules location)

def loadCatalog (t : Tree) (root : String) (settings : Settings) : Except CommandError Catalog :=
  (Catalog.load t (Location.join root settings.servicesFile)).mapError .catalog

def load (t : Tree) (root : String) (settings : Settings) : Except CommandError Workspace := do
  let text ← rulesText t root settings
  let rules ← (Rules.parse settings.rulesFile text).mapError .rules
  let catalog ← loadCatalog t root settings
  return ⟨root, settings, ⟨settings.rulesFile, rules⟩, [], catalog⟩

def loadLenient (t : Tree) (root : String) (settings : Settings) :
    Except CommandError Workspace := do
  let text ← rulesText t root settings
  let (rules, rejected) := Rules.parseLenient settings.rulesFile text
  let catalog ← loadCatalog t root settings
  return ⟨root, settings, ⟨settings.rulesFile, rules⟩, rejected, catalog⟩

end Workspace

end Ownership
