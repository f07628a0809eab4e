import Ownership.Command
import Ownership.CommandLine.Arguments
import Ownership.Decimal.Text

set_option autoImplicit false

/-!
# Invocations

What a command line asks for. Some options belong to every command and may stand before its name
or after it; what stands after it counts.
-/
namespace Ownership

structure SharedOptions where
  repoRoot : Option String := none
  rulesFile : Option String := none
  servicesFile : Option String := none
  verbose : Nat := 0
  quiet : Bool := false
deriving DecidableEq, Repr

inductive Command where
  | whoOwns (path : String) (explain : Bool) (format : OwnerFormat)
  | impacted (diff : Option String) (stdin : Bool) (format : ImpactFormat) (showFiles : Bool)
      (maxFiles : Option Nat) (failOnUnmapped : Bool)
  | lint (strict checkMatches checkOverlaps : Bool) (format : LintFormat)
  | init (codeowners : Option String) (write force : Bool)
  | config
deriving DecidableEq, Repr

structure Invocation where
  shared : SharedOptions
  command : Command
deriving DecidableEq, Repr

def OwnerFormat.ofName? : String → Option OwnerFormat
  | "text" => some .text
  | "json" => some .json
  | _ => none

def ImpactFormat.ofName? : String → Option ImpactFormat
  | "text" => some .text
  | "markdown" => some .markdown
  | "json" => some .json
  | "comment" => some .comment
  | _ => none

def LintFormat.ofName? : String → Option LintFormat
  | "text" => some .text
  | "markdown" => some .markdown
  | "json" => some .json
  | _ => none

namespace Arguments

def read? {α : Type} (a : Arguments) (name : String) (ofText? : String → Option α) :
    Except UsageError (Option α) :=
  match a.value? name with
  | none => .ok none
  | some text =>
    match ofText? text with
    | some v => .ok (some v)
    | none => .error (.badValue name text)

def location? (text : String) : Option String :=
  if text = "" then none else some text

def natural? (text : String) : Option Nat :=
  let digits := match text.toList with
    | '+' :: cs => cs
    | cs => cs
  match naturalOfDigits? 10 digits with
  | some n => if n < Nat.pow 2 64 then some n else none
  | none => none

def onlyOptions (a : Arguments) : Except UsageError Unit :=
  match a.operands with
  | [] => .ok ()
  | word :: _ => .error (.unexpectedOperand word)

end Arguments

namespace SharedOptions

def specs : List OptionSpec :=
  [⟨"repo-root", none, .valued⟩, ⟨"serviceowners-file", none, .valued⟩,
    ⟨"services-file", none, .valued⟩, ⟨"verbose", some 'v', .counted⟩, ⟨"quiet", some 'q', .flag⟩]

def read (a : Arguments) : Except UsageError SharedOptions := do
  return {
    repoRoot := ← a.read? "repo-root" Arguments.location?
    rulesFile := a.value? "serviceowners-file"
    servicesFile := a.value? "services-file"
    verbose := a.count "verbose"
    quiet := a.has "quiet" }

/-- The options before a command's name under those after it. -/
def merge (before after : SharedOptions) : SharedOptions where
  repoRoot := after.repoRoot.or before.repoRoot
  rulesFile := after.rulesFile.or before.rulesFile
  servicesFile := after.servicesFile.or before.servicesFile
  verbose := if after.verbose = 0 then before.verbose else after.verbose
  quiet := after.quiet || before.quiet

def overrides (o : SharedOptions) : Overrides :=
  { rulesFile := o.rulesFile, servicesFile := o.servicesFile }

end SharedOptions

structure CommandSpec where
  names : List String
  options : List OptionSpec
  make : Arguments → Except UsageError Command

namespace CommandSpec

def flag (name : String) : OptionSpec :=
  ⟨name, none, .flag⟩

def valued (name : String) : OptionSpec :=
  ⟨name, none, .valued⟩

def whoOwns : CommandSpec where
  names := ["who-owns", "who", "owner"]
  options := [flag "explain", valued "format"]
  make a := do
    let format ← a.read? "format" OwnerFormat.ofName?
    match a.operands with
    | [path] => return .whoOwns path (a.has "explain") (format.getD .text)
    | [] => throw (.missingOperand "PATH")
    | _ :: word :: _ => throw (.unexpectedOperand word)

def impacted : CommandSpec where
  names := ["impacted", "impact"]
  options :=
    [valued "diff", flag "stdin", valued "format", flag "show-files", valued "max-files",
      flag "fail-on-unmapped"]
  make a := do
    a.onlyOptions
    if a.has "diff" && a.has "stdin" then
      throw (.conflict "diff" "stdin")
    let format ← a.read? "format" ImpactFormat.ofName?
    let maxFiles ← a.read? "max-files" Arguments.natural?
    return .impacted (a.value? "diff") (a.has "stdin") (format.getD .text) (a.has "show-files")
      maxFiles (a.has "fail-on-unmapped")

def lint : CommandSpec where
  names := ["lint"]
  options := [flag "strict", flag "check-matches", flag "check-overlaps", valued "format"]
  make a := do
    a.onlyOptions
    let format ← a.read? "format" LintFormat.ofName?
    return .lint (a.has "strict") (a.has "check-matches") (a.has "check-overlaps")
      (format.getD .text)

def init : CommandSpec where
  names := ["init"]
  options := [valued "codeowners", flag "write", flag "force"]
  make a := do
    a.onlyOptions
    let codeowners ← a.read? "codeowners" Arguments.location?
    return .init codeowners (a.has "write") (a.has "force")

def config : CommandSpec where
  names := ["config"]
  options := []
  make a := do
    a.onlyOptions
    return .config

def all : List CommandSpec :=
  [whoOwns, impacted, lint, init, config]

end CommandSpec

namespace Invocation

def read (words : List String) : Except UsageError Invocation := do
  let (outer, rest) ← Arguments.read SharedOptions.specs true {} words
  outer.onlyOptions
  let before ← SharedOptions.read outer
  match rest with
  | [] => throw .missingCommand
  | name :: words =>
    match CommandSpec.all.find? (name ∈ ·.names) with
    | none => throw (.unknownCommand name)
    | some c =>
      let (inner, _) ← Arguments.read (c.options ++ SharedOptions.specs) false {} words
      return ⟨before.merge (← SharedOptions.read inner), ← c.make inner⟩

def isBlank (words : List String) : Bool :=
  words = [] || words = ["--"]

end Invocation

end Ownership
