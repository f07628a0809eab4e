import Ownership.Json.Printer
import Ownership.Lint

set_option autoImplicit false

/-!
# Settings

What a run can be told: which files hold the rules and the services, how the impact of a change is
shown, and which checks run. Settings come in layers, and a later layer wins key by key.
-/
namespace Ownership

structure ImpactSettings where
  diff : String
  maxFiles : Nat
  failOnUnmapped : Bool
deriving DecidableEq, Repr

structure Settings where
  rulesFile : String
  servicesFile : String
  impact : ImpactSettings
  lint : LintOptions
deriving DecidableEq, Repr

namespace Settings

def builtin : Settings where
  rulesFile := defaultSource
  servicesFile := "services.yaml"
  impact := ⟨"HEAD~1...HEAD", 50, false⟩
  lint := {}

def toJson (s : Settings) : Json :=
  .obj
    [("serviceowners_file", .str s.rulesFile), ("services_file", .str s.servicesFile),
      ("impacted", .obj
        [("diff", .str s.impact.diff), ("max_files", .ofNat s.impact.maxFiles),
          ("fail_on_unmapped", .bool s.impact.failOnUnmapped)]),
      ("lint", .obj
        [("strict", .bool s.lint.strict), ("check_matches", .bool s.lint.checkMatches),
          ("check_overlaps", .bool s.lint.checkOverlaps)])]

/-- The settings as a layer, every object sorted by key. -/
def toLayer (s : Settings) : Json :=
  .obj
    [("impacted", .obj
        [("diff", .str s.impact.diff), ("fail_on_unmapped", .bool s.impact.failOnUnmapped),
          ("max_files", .ofNat s.impact.maxFiles)]),
      ("lint", .obj
        [("check_matches", .bool s.lint.checkMatches),
          ("check_overlaps", .bool s.lint.checkOverlaps), ("strict", .bool s.lint.strict)]),
      ("serviceowners_file", .str s.rulesFile), ("services_file", .str s.servicesFile)]

end Settings

/-- Values given for one run; what is not given leaves the layers below alone. -/
structure Overrides where
  rulesFile : Option String := none
  servicesFile : Option String := none
  diff : Option String := none
  maxFiles : Option Nat := none
  failOnUnmapped : Option Bool := none
  strict : Option Bool := none
  checkMatches : Option Bool := none
  checkOverlaps : Option Bool := none
deriving DecidableEq, Repr

namespace Overrides

def optionalSection (key : String) (fields : List (String × Json)) : List (String × Json) :=
  if fields.isEmpty then [] else [(key, .obj fields)]

def fields (o : Overrides) : List (String × Json) :=
  optionalSection "impacted"
      (Json.optional "diff" (o.diff.map .str) ++
        Json.optional "fail_on_unmapped" (o.failOnUnmapped.map .bool) ++
        Json.optional "max_files" (o.maxFiles.map .ofNat)) ++
    optionalSection "lint"
      (Json.optional "check_matches" (o.checkMatches.map .bool) ++
        Json.optional "check_overlaps" (o.checkOverlaps.map .bool) ++
        Json.optional "strict" (o.strict.map .bool)) ++
    Json.optional "serviceowners_file" (o.rulesFile.map .str) ++
    Json.optional "services_file" (o.servicesFile.map .str)

def toLayer (o : Overrides) : Json :=
  .obj o.fields

def isEmpty (o : Overrides) : Bool :=
  o.fields.isEmpty

end Overrides

end Ownership
