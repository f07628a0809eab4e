import Ownership.Catalog.Basic
import Ownership.Index
import Ownership.Json.Printer

set_option autoImplicit false

/-!
# Showing who owns a path

The owner of one path with the service's metadata, as plain text or JSON. On request the text also
lists every accepting rule and marks the one that decided.
-/
namespace Ownership

structure RuleRef where
  index : Nat
  pattern : String
  service : String
  line : Option Nat
  source : String
deriving DecidableEq, Repr

namespace RuleRef

def toJson (r : RuleRef) : Json :=
  .obj <|
    [("rule_index", .ofNat r.index), ("pattern", .str r.pattern), ("service", .str r.service)] ++
    Json.optional "line" (r.line.map Json.ofNat) ++ [("source", .str r.source)]

def location (r : RuleRef) : String :=
  match r.line with
  | some line => r.source ++ ":" ++ toString line
  | none => r.source ++ "#" ++ toString r.index

end RuleRef

inductive OwnerFormat where
  | text
  | json
deriving DecidableEq, Repr

/-- Ownership of one path. `accepting` has every accepting rule in file order. -/
structure OwnerView where
  path : String
  service : Option String
  chosen : Option RuleRef
  accepting : List RuleRef
  metadata : Option Service
  explain : Bool
deriving DecidableEq, Repr

namespace OwnerView

def ruleRef? (ix : Index) (i : Nat) : Option RuleRef :=
  ix.rules[i]?.map fun rule => ⟨i, rule.pattern, rule.service, rule.line, ix.source⟩

/-- `e` is an explanation from `ix`, so its positions are those of rules. -/
def ofExplanation (e : Explanation) (ix : Index) (catalog : Catalog) (explain : Bool) :
    OwnerView where
  path := e.path
  service := e.result.service?
  chosen := e.result.rule?.bind (ruleRef? ix)
  accepting := e.accepted.filterMap fun v => ruleRef? ix v.index
  metadata := e.result.service?.bind catalog.get?
  explain := explain

def toJson (v : OwnerView) : String :=
  Json.pretty <| .obj <|
    [("path", .str v.path), ("service", .ofOption .str v.service),
      ("chosen_rule", .ofOption RuleRef.toJson v.chosen),
      ("matches", .arr (v.accepting.map RuleRef.toJson))] ++
    Json.optional "metadata" (v.metadata.map Service.toJson)

def metadataLines (s : Service) : List String :=
  (if s.ownersLine = "" then [] else ["  owners: " ++ s.ownersLine]) ++
    (s.contact.slack.map ("  slack: " ++ ·)).toList ++
    (s.contact.email.map ("  email: " ++ ·)).toList ++
    (s.oncall.map ("  oncall: " ++ ·)).toList ++
    (s.runbook.map ("  runbook: " ++ ·)).toList ++
    (s.docs.map ("  docs: " ++ ·)).toList

def ruleLine (v : OwnerView) (r : RuleRef) : String :=
  "- " ++ r.pattern ++ " -> " ++ r.service ++ " (" ++ r.location ++ ")" ++
    if v.chosen = some r then "  <== chosen" else ""

def toText (v : OwnerView) : String :=
  match v.service with
  | none =>
    Text.joinLines <|
      (v.path ++ ": (unmapped)") :: if v.explain then ["", "No matching rules."] else []
  | some service =>
    Text.joinLines <|
      (v.path ++ ": " ++ service) :: (v.metadata.map metadataLines).getD [] ++
      if v.explain then "" :: "Matched rules (last match wins):" :: v.accepting.map v.ruleLine
      else []

def render (v : OwnerView) : OwnerFormat → String
  | .text => v.toText
  | .json => v.toJson

end OwnerView

end Ownership
