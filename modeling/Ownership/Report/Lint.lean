import Ownership.Json.Printer
import Ownership.Lint

set_option autoImplicit false

/-!
# Showing lint findings

Findings as plain text, as Markdown and as JSON, each with a count by severity.
-/
namespace Ownership

structure LintView where
  report : LintReport
  source : String

inductive LintFormat where
  | text
  | markdown
  | json
deriving DecidableEq, Repr

def Finding.toJson (f : Finding) : Json :=
  .obj <|
    [("kind", .str f.kind.code), ("severity", .str f.severity.name)] ++
    Json.optional "rule_index" (f.rule.map Json.ofNat) ++
    Json.optional "line" (f.line.map Json.ofNat) ++
    [("message", .str f.message)] ++
    Json.optional "hint" (f.hint.map .str)

namespace LintView

def location (v : LintView) (f : Finding) : String :=
  match f.line with
  | some line => v.source ++ ":" ++ toString line ++ ": "
  | none => ""

def summary (v : LintView) : String :=
  toString (v.report.count .error) ++ " error(s), " ++ toString (v.report.count .warning) ++
    " warning(s), " ++ toString (v.report.count .info) ++ " info"

def textLines (v : LintView) (f : Finding) : List String :=
  (f.severity.name ++ "[" ++ f.kind.code ++ "] " ++ v.location f ++ f.message) ::
    (f.hint.map ("  hint: " ++ ·)).toList

def toText (v : LintView) : String :=
  if v.report.isClean then "No lint issues found."
  else Text.joinLines (v.report.findings.flatMap v.textLines ++ ["", v.summary])

def markdownLine (v : LintView) (f : Finding) : String :=
  let hint := match f.hint with
    | some text => " _(hint: " ++ text ++ ")_"
    | none => ""
  "- **" ++ f.kind.code ++ "** " ++ f.severity.name ++ ": " ++ v.location f ++ f.message ++ hint

def toMarkdown (v : LintView) : String :=
  if v.report.isClean then "### Lint\n\nNo lint issues found.\n"
  else
    Text.joinLines
      (["### Lint", ""] ++ v.report.findings.map v.markdownLine ++ ["", v.summary, ""])

def toJson (v : LintView) : String :=
  Json.pretty <| .obj
    [("source", .str v.source), ("failed", .bool v.report.isFailure),
      ("errors", .ofNat (v.report.count .error)), ("warnings", .ofNat (v.report.count .warning)),
      ("infos", .ofNat (v.report.count .info)),
      ("findings", .arr (v.report.findings.map Finding.toJson)), ("strict", .bool v.report.strict)]

def render (v : LintView) : LintFormat → String
  | .text => v.toText
  | .markdown => v.toMarkdown
  | .json => v.toJson

end LintView

end Ownership
