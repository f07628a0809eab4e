import Ownership.Datum
import Ownership.Settings.Basic
import Ownership.Settings.Merge

set_option autoImplicit false

/-!
# Reading merged settings

Merged layers are checked before any command runs: a key that is not known, a value of the wrong
type, and a key that is missing are faults. An object is read in the order of its keys; a list
gives the fields of a section in order.
-/
namespace Ownership

namespace Json

def mismatch {α : Type} (found : Json) (expected : String) : Except String α :=
  Datum.mismatch .json (.ofJson found) expected

def readString : Json → Except String String
  | .str s => .ok s
  | v => v.mismatch "a string"

def readBool : Json → Except String Bool
  | .bool b => .ok b
  | v => v.mismatch "a boolean"

def readNat : Json → Except String Nat
  | .int n =>
    if n < 0 then .error ("invalid value: integer `" ++ toString n ++ "`, expected usize")
    else .ok n.toNat
  | v => v.mismatch "usize"

def unknownField {α : Type} (key : String) (names : List String) : Except String α :=
  .error ("unknown field `" ++ key ++ "`, expected one of " ++
    ", ".intercalate (names.map fun name => "`" ++ name ++ "`"))

def require {α : Type} (name : String) : Option α → Except String α
  | some a => .ok a
  | none => .error ("missing field `" ++ name ++ "`")

def readRecord {δ α : Type} (title : String) (names : List String)
    (set : δ → String → Json → Except String δ) (finish : δ → Except String α) (start : δ) :
    Json → Except String α
  | .obj fields => do
    let draft ← fields.foldlM
      (fun draft (key, value) =>
        if key ∈ names then set draft key value else unknownField key names)
      start
    finish draft
  | .arr items => do
    let draft ← (names.zip items).foldlM (fun draft (key, value) => set draft key value) start
    if items.length < names.length then
      .error ("invalid length " ++ toString items.length ++ ", expected struct " ++ title ++
        " with " ++ toString names.length ++ " elements")
    else if names.length < items.length then
      .error ("invalid length " ++ toString items.length ++ ", expected fewer elements in array")
    else finish draft
  | v => v.mismatch ("struct " ++ title)

end Json

namespace ImpactSettings

structure Draft where
  diff : Option String := none
  maxFiles : Option Nat := none
  failOnUnmapped : Option Bool := none

def Draft.set (d : Draft) (key : String) (v : Json) : Except String Draft :=
  match key with
  | "diff" => v.readString.map fun diff => { d with diff := some diff }
  | "max_files" => v.readNat.map fun maxFiles => { d with maxFiles := some maxFiles }
  | _ => v.readBool.map fun failOnUnmapped => { d with failOnUnmapped := some failOnUnmapped }

def Draft.finish (d : Draft) : Except String ImpactSettings := do
  let diff ← Json.require "diff" d.diff
  let maxFiles ← Json.require "max_files" d.maxFiles
  let failOnUnmapped ← Json.require "fail_on_unmapped" d.failOnUnmapped
  return ⟨diff, maxFiles, failOnUnmapped⟩

def read : Json → Except String ImpactSettings :=
  Json.readRecord "ImpactedSettings" ["diff", "max_files", "fail_on_unmapped"] Draft.set
    Draft.finish {}

end ImpactSettings

namespace LintOptions

structure Draft where
  strict : Option Bool := none
  checkMatches : Option Bool := none
  checkOverlaps : Option Bool := none

def Draft.set (d : Draft) (key : String) (v : Json) : Except String Draft :=
  match key with
  | "strict" => v.readBool.map fun b => { d with strict := some b }
  | "check_matches" => v.readBool.map fun b => { d with checkMatches := some b }
  | _ => v.readBool.map fun b => { d with checkOverlaps := some b }

def Draft.finish (d : Draft) : Except String LintOptions := do
  let strict ← Json.require "strict" d.strict
  let checkMatches ← Json.require "check_matches" d.checkMatches
  let checkOverlaps ← Json.require "check_overlaps" d.checkOverlaps
  return ⟨strict, checkMatches, checkOverlaps⟩

def read : Json → Except String LintOptions :=
  Json.readRecord "LintSettings" ["strict", "check_matches", "check_overlaps"] Draft.set
    Draft.finish {}

end LintOptions

namespace Settings

structure Draft where
  rulesFile : Option String := none
  servicesFile : Option String := none
  impact : Option ImpactSettings := none
  lint : Option LintOptions := none

def Draft.set (d : Draft) (key : String) (v : Json) : Except String Draft :=
  match key with
  | "serviceowners_file" => v.readString.map fun name => { d with rulesFile := some name }
  | "services_file" => v.readString.map fun name => { d with servicesFile := some name }
  | "impacted" => (ImpactSettings.read v).map fun impact => { d with impact := some impact }
  | _ => (LintOptions.read v).map fun lint => { d with lint := some lint }

def Draft.finish (d : Draft) : Except String Settings := do
  let rulesFile ← Json.require "serviceowners_file" d.rulesFile
  let servicesFile ← Json.require "services_file" d.servicesFile
  let impact ← Json.require "impacted" d.impact
  let lint ← Json.require "lint" d.lint
  return ⟨rulesFile, servicesFile, impact, lint⟩

def read : Json → Except String Settings :=
  Json.readRecord "Settings" ["serviceowners_file", "services_file", "impacted", "lint"] Draft.set
    Draft.finish {}

end Settings

inductive SettingsFault where
  | noFiles
  | blankRulesFile
  | blankServicesFile
deriving DecidableEq, Repr

def SettingsFault.message : SettingsFault → String
  | .noFiles => "impacted.max_files must be greater than 0"
  | .blankRulesFile => "serviceowners_file must not be empty"
  | .blankServicesFile => "services_file must not be empty"

inductive SettingsError where
  | unreadable (location cause : String)
  | malformed (location cause : String)
  | shape (reason : String)
  | invalid (fault : SettingsFault)
deriving DecidableEq, Repr

def SettingsError.message : SettingsError → String
  | .unreadable location cause => "IO error: " ++ location ++ ": " ++ cause
  | .malformed location cause => "Parse error: " ++ location ++ ": " ++ cause
  | .shape reason => "Parse error: invalid settings: " ++ reason
  | .invalid fault => "Validation error: " ++ fault.message

inductive LayerSource where
  | builtin
  | repo (location : String)
  | commandLine
deriving DecidableEq, Repr

namespace LayerSource

def toJson : LayerSource → Json
  | .builtin => .obj [("origin", .str "builtin")]
  | .repo location => .obj [("origin", .str "repo"), ("path", .str location)]
  | .commandLine => .obj [("origin", .str "cli")]

end LayerSource

/-- Settings with the layers they come from, the lowest first. -/
structure EffectiveSettings where
  settings : Settings
  sources : List LayerSource
deriving DecidableEq, Repr

namespace Settings

def isBlank (s : String) : Bool :=
  (Text.trim s.toList).isEmpty

def check (s : Settings) : Except SettingsFault Settings :=
  if s.impact.maxFiles = 0 then .error .noFiles
  else if isBlank s.rulesFile then .error .blankRulesFile
  else if isBlank s.servicesFile then .error .blankServicesFile
  else .ok s

end Settings

namespace EffectiveSettings

/-- The layers that take part: the built-in one, the repository's file with its location if there
is one, and the overrides if any is given. -/
def layers (repo : Option (String × Json)) (overrides : Overrides) : List (LayerSource × Json) :=
  (.builtin, Settings.builtin.toLayer) ::
    ((repo.map fun (location, layer) => (.repo location, layer)).toList ++
      if overrides.isEmpty then [] else [(.commandLine, overrides.toLayer)])

def build (repo : Option (String × Json)) (overrides : Overrides) :
    Except SettingsError EffectiveSettings :=
  let layers := layers repo overrides
  match Settings.read (Json.mergeLayers (layers.map Prod.snd)) with
  | .error reason => .error (.shape reason)
  | .ok settings =>
    match settings.check with
    | .error fault => .error (.invalid fault)
    | .ok settings => .ok ⟨settings, layers.map Prod.fst⟩

def toJson (e : EffectiveSettings) : Json :=
  .obj [("settings", e.settings.toJson), ("sources", .arr (e.sources.map LayerSource.toJson))]

end EffectiveSettings

end Ownership
