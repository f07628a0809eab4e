import Ownership.Catalog.Basic
import Ownership.Index

set_option autoImplicit false

/-!
# Lint

Checks on a list of rules. Syntax, empty services, repeated patterns and the catalog are always
checked; unused rules need a listing of the repository's files, and so do files with several
owners. `strict` makes errors of warnings and fails on any finding.
-/
namespace Ownership

inductive Severity where
  | info
  | warning
  | error
deriving DecidableEq, Repr

def Severity.name : Severity → String
  | .info => "info"
  | .warning => "warning"
  | .error => "error"

inductive FindingKind where
  | invalidPattern
  | emptyService
  | duplicatePattern
  | unknownService
  | serviceHasNoContact
  | unusedRule
  | shadowedRule
  | overlappingRules
  | overlappingFiles
  | missingFileListing
deriving DecidableEq, Repr

namespace FindingKind

def code : FindingKind → String
  | .invalidPattern => "INVALID_PATTERN"
  | .emptyService => "EMPTY_SERVICE"
  | .duplicatePattern => "DUPLICATE_PATTERN"
  | .unknownService => "UNKNOWN_SERVICE"
  | .serviceHasNoContact => "SERVICE_HAS_NO_CONTACT"
  | .unusedRule => "UNUSED_RULE"
  | .shadowedRule => "SHADOWED_RULE"
  | .overlappingRules => "OVERLAPPING_RULES"
  | .overlappingFiles => "OVERLAPPING_FILES"
  | .missingFileListing => "MISSING_FILE_LISTING"

def all : List FindingKind :=
  [.invalidPattern, .emptyService, .duplicatePattern, .unknownService, .serviceHasNoContact,
    .unusedRule, .shadowedRule, .overlappingRules, .overlappingFiles, .missingFileListing]

def severity : FindingKind → Severity
  | .invalidPattern => .error
  | .emptyService => .error
  | .missingFileListing => .error
  | .overlappingRules => .info
  | .overlappingFiles => .info
  | _ => .warning

end FindingKind

structure Finding where
  kind : FindingKind
  severity : Severity
  rule : Option Nat := none
  line : Option Nat := none
  message : String
  hint : Option String := none
deriving DecidableEq, Repr

namespace Finding

def general (kind : FindingKind) (message : String) (hint : Option String) : Finding :=
  { kind, severity := kind.severity, message, hint }

def onRule (kind : FindingKind) (index : Nat) (rule : Rule) (message : String)
    (hint : Option String) : Finding :=
  { kind, severity := kind.severity, rule := some index, line := rule.line, message, hint }

def promote (f : Finding) : Finding :=
  if f.severity = .warning then { f with severity := .error } else f

end Finding

structure LintOptions where
  strict : Bool := false
  checkMatches : Bool := false
  checkOverlaps : Bool := false
deriving DecidableEq, Repr

structure LintReport where
  findings : List Finding
  strict : Bool
deriving DecidableEq, Repr

namespace LintReport

def count (r : LintReport) (severity : Severity) : Nat :=
  r.findings.countP (·.severity == severity)

def hasErrors (r : LintReport) : Bool :=
  r.findings.any (·.severity == .error)

def hasWarnings (r : LintReport) : Bool :=
  r.findings.any (·.severity == .warning)

/-- Errors fail, and in a strict run every finding does. -/
def isFailure (r : LintReport) : Bool :=
  r.hasErrors || (r.strict && !r.findings.isEmpty)

def isClean (r : LintReport) : Bool :=
  r.findings.isEmpty

end LintReport

structure LintInput where
  options : LintOptions
  catalog : Option Catalog := none
  files : Option (List String) := none
  rejected : List LineError := []

namespace Lint

def checkSyntax (rejected : List LineError) : List Finding :=
  rejected.map fun e =>
    { Finding.general .invalidPattern e.fault.message
        (some "Each line must be `<pattern> <service>` with a valid glob.") with
      line := some e.line }

def isBlankService (rule : Rule) : Bool :=
  (Text.trim rule.service.toList).isEmpty

def checkServices (rules : List (Rule × Nat)) : List Finding :=
  rules.filterMap fun (rule, i) =>
    if isBlankService rule then
      some (.onRule .emptyService i rule
        ("Pattern '" ++ rule.pattern ++ "' has an empty service name.") none)
    else none

def duplicateMessage (rule earlier : Rule) (first : Nat) : String :=
  if earlier.service = rule.service then
    "Pattern '" ++ rule.pattern ++ "' is repeated for service '" ++ rule.service ++
      "' (first at rule " ++ toString first ++ ")."
  else
    "Pattern '" ++ rule.pattern ++ "' is defined more than once (last match wins). Previous: " ++
      earlier.service ++ " (rule " ++ toString first ++ "), this: " ++ rule.service ++ "."

def duplicateFinding (rule : Rule) (i : Nat) (earlier : Rule) (first : Nat) : Finding :=
  .onRule .duplicatePattern i rule (duplicateMessage rule earlier first)
    (some "Remove duplicates or make precedence explicit.")

/-- `firstSeen` has where each pattern text was met first, as a position in `rules`. -/
def duplicatesFrom (rules : List Rule) (firstSeen : List (String × Nat)) :
    List (Rule × Nat) → List Finding
  | [] => []
  | (rule, i) :: later =>
    match firstSeen.lookup rule.pattern with
    | none => duplicatesFrom rules ((rule.pattern, i) :: firstSeen) later
    | some first =>
      (rules[first]?.map fun earlier => duplicateFinding rule i earlier first).toList ++
        duplicatesFrom rules firstSeen later

def checkDuplicates (rules : List Rule) : List Finding :=
  duplicatesFrom rules [] rules.zipIdx

def checkUnknown (catalog : Catalog) (rules : List (Rule × Nat)) : List Finding :=
  rules.filterMap fun (rule, i) =>
    if isBlankService rule || catalog.contains rule.service then none
    else some (.onRule .unknownService i rule
      ("Rule references unknown service '" ++ rule.service ++ "'.")
      (some "Add it to the services catalog (or fix the spelling)."))

def checkContacts (catalog : Catalog) : List Finding :=
  catalog.services.filterMap fun (name, service) =>
    if service.hasContact then none
    else some (.general .serviceHasNoContact
      ("Service '" ++ name ++ "' has no owners and no contact (slack/email).")
      (some "Add owners or contact so reviewers know who to ask."))

def checkCatalog (catalog : Option Catalog) (rules : List (Rule × Nat)) : List Finding :=
  match catalog with
  | some c => checkUnknown c rules ++ checkContacts c
  | none => []

def checkUnused (files : List String) (rules : List (Rule × Nat)) : List Finding :=
  rules.filterMap fun (rule, i) =>
    if files.any rule.accepts then none
    else some (.onRule .unusedRule i rule
      ("Pattern '" ++ rule.pattern ++ "' matches no files in the repository.")
      (some "Remove it or fix the glob (or ignore if files are generated later)."))

def checkMatches (files : Option (List String)) (rules : List (Rule × Nat)) : List Finding :=
  match files with
  | some listing => checkUnused listing rules
  | none =>
    [.general .missingFileListing "check-matches needs a repository file listing" none]

def shadowFinding (rule : Rule) (i : Nat) (later : Rule) (j : Nat) : Finding :=
  .onRule .shadowedRule i rule
    ("Rule '" ++ rule.pattern ++ " " ++ rule.service ++
      "' can never win: every path it matches is also matched by later rule '" ++ later.pattern ++
      " " ++ later.service ++ "' (rule " ++ toString j ++ ").")
    (some "Move the rule below the broader one or delete it.")

def overlapFinding (rule : Rule) (i : Nat) (later : Rule) (j : Nat) : Finding :=
  .onRule .overlappingRules i rule
    ("Rules '" ++ rule.pattern ++ "' (" ++ rule.service ++ ") and '" ++ later.pattern ++ "' (" ++
      later.service ++ ", rule " ++ toString j ++
      ") can match the same paths; the later rule wins.")
    none

/-- One rule against the rules after it: the first that covers it shadows it; if none does, each
rule of another service that may accept a common path overlaps it. -/
def compareWithLater (rule : Rule) (i : Nat) (later : List (Rule × Nat)) : List Finding :=
  match later.find? fun (other, _) => other.compiled.covers rule.compiled with
  | some (other, j) => [shadowFinding rule i other j]
  | none =>
    later.filterMap fun (other, j) =>
      if other.service ≠ rule.service ∧ other.compiled.intersects rule.compiled then
        some (overlapFinding rule i other j)
      else none

/-- Shadowing is decided one later rule at a time: a rule that several later ones cover only
together overlaps them. -/
def checkShadowing : List (Rule × Nat) → List Finding
  | [] => []
  | (rule, i) :: later => compareWithLater rule i later ++ checkShadowing later

def maxExamples : Nat := 25

/-- `total` counts the listed files that rules of several services accept; only the first of them
become examples. -/
structure OverlapScan where
  total : Nat
  examples : List String
deriving DecidableEq, Repr

def OverlapScan.visit (ix : Index) (scan : OverlapScan) (file : String) : OverlapScan :=
  let accepting := ix.acceptingIndices file
  if accepting.length < 2 then scan
  else
    let services := (accepting.filterMap (ix.rules[·]?)).map (·.service)
    if services.eraseDups.length < 2 then scan
    else
      { total := scan.total + 1
        examples :=
          if scan.examples.length < maxExamples then
            scan.examples ++ [file ++ " -> " ++ ", ".intercalate services]
          else scan.examples }

def checkOverlappingFiles (ix : Index) (files : Option (List String)) : List Finding :=
  let scan := (files.getD []).foldl (OverlapScan.visit ix) ⟨0, []⟩
  if scan.total = 0 then []
  else
    [.general .overlappingFiles
      (toString scan.total ++
        " file(s) match rules of more than one service (last match wins). Examples: " ++
        "; ".intercalate scan.examples)
      (some "Often fine. If it is confusing, tighten globs or add comments.")]

def findings (input : LintInput) (ix : Index) : List Finding :=
  let rules := ix.rules.zipIdx
  checkSyntax input.rejected ++ checkServices rules ++ checkDuplicates ix.rules ++
    checkCatalog input.catalog rules ++
    (if input.options.checkMatches then checkMatches input.files rules else []) ++
    (if input.options.checkOverlaps then
      checkShadowing rules ++ checkOverlappingFiles ix input.files else [])

end Lint

def Index.lint (ix : Index) (input : LintInput) : LintReport :=
  let found := Lint.findings input ix
  ⟨if input.options.strict then found.map Finding.promote else found, input.options.strict⟩

end Ownership
