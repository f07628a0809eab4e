import Ownership.Catalog.Basic
import Ownership.Impact
import Ownership.Json.Printer

set_option autoImplicit false

/-!
# Showing the impact of a change

The report on changed paths as plain text, as Markdown, as a comment on a pull request, and as
JSON. The first three list services by falling number of files, then by name.
-/
namespace Ownership

def fileCount (n : Nat) : String :=
  if n = 1 then "1 file" else toString n ++ " files"

structure ImpactView where
  report : ImpactReport
  catalog : Catalog
  diff : Option String := none
  showFiles : Bool := false
  maxFiles : Nat := 50

inductive ImpactFormat where
  | text
  | markdown
  | json
  | comment
deriving DecidableEq, Repr

namespace ImpactView

/-- Whether `a` stands before `b` or with it: more files first, then by name. -/
def ranksBefore (a b : ServiceImpact) : Bool :=
  a.files.length > b.files.length || (a.files.length == b.files.length && a.service ≤ b.service)

def ranked (v : ImpactView) : List ServiceImpact :=
  v.report.services.mergeSort ranksBefore

def fileLines (limit : Nat) (line : String → String) (more : Nat → String) (files : List String) :
    List String :=
  (files.take limit).map line ++
    if limit < files.length then [more (files.length - limit)] else []

def ownersBit (s : Service) : List String :=
  if s.ownersLine = "" then [] else ["owners: " ++ s.ownersLine]

def bulletFile (file : String) : String :=
  "- `" ++ file ++ "`"

def bulletMore (n : Nat) : String :=
  "- _...and " ++ toString n ++ " more_"

def textHeader (v : ImpactView) (s : ServiceImpact) : String :=
  let details := match v.catalog.get? s.service with
    | some known => ownersBit known ++ (known.contact.slack.map ("slack: " ++ ·)).toList
    | none => []
  "  " ++ s.service ++ " (" ++ fileCount s.files.length ++ ")" ++
    String.join (details.map ("  " ++ ·))

def toText (v : ImpactView) : String :=
  if v.report.isEmpty then "No changed files."
  else
    let services := v.ranked.flatMap fun s =>
      textHeader v s ::
        if v.showFiles then
          fileLines v.maxFiles ("    " ++ ·) (fun n => "    ...and " ++ toString n ++ " more")
            s.files
        else []
    let unmapped :=
      if v.report.hasUnmapped then
        "" :: ("Unmapped files (" ++ toString v.report.unmapped.length ++ "):") ::
          fileLines v.maxFiles ("  " ++ ·) (fun n => "  ...and " ++ toString n ++ " more")
            v.report.unmapped
      else []
    Text.joinLines
      (("Impacted services (" ++ toString v.report.services.length ++ "):") :: services ++ unmapped)

def markdownBits (s : Service) : List String :=
  ownersBit s ++
    (s.contact.slack.map fun t => "slack: `" ++ t ++ "`").toList ++
    (s.oncall.map ("oncall: " ++ ·)).toList ++
    (s.runbook.map fun t => "[runbook](" ++ t ++ ")").toList ++
    (s.docs.map fun t => "[docs](" ++ t ++ ")").toList

def bullet (bits : List String) : String :=
  "- " ++ " · ".intercalate bits

def markdownService (v : ImpactView) (s : ServiceImpact) : List String :=
  let details := match v.catalog.get? s.service with
    | some known => markdownBits known
    | none => []
  bullet (("**" ++ s.service ++ "**") :: ("(" ++ fileCount s.files.length ++ ")") :: details) ::
    if v.showFiles then
      fileLines v.maxFiles ("  " ++ bulletFile ·) ("  " ++ bulletMore ·) s.files
    else []

def toMarkdown (v : ImpactView) : String :=
  if v.report.isEmpty then
    Text.joinLines ["## Impacted services", "", "_No changed files detected._"]
  else
    let unmapped :=
      if v.report.hasUnmapped then
        ("### Unmapped files (" ++ toString v.report.unmapped.length ++ ")") :: "" ::
          fileLines v.maxFiles bulletFile bulletMore v.report.unmapped ++ [""]
      else []
    Text.joinLines
      (["## Impacted services", "",
          "### Impacted services (" ++ toString v.report.services.length ++ ")", ""] ++
        v.ranked.flatMap (markdownService v) ++ [""] ++ unmapped)

/-- The lines between which a comment stands, so that it can be found again. -/
def beginMarker : String := "<!-- serviceowners:begin -->"

def endMarker : String := "<!-- serviceowners:end -->"

def commentUnmapped : Nat := 10

def commentService (v : ImpactView) (s : ServiceImpact) : String :=
  let details := match v.catalog.get? s.service with
    | some known =>
      ownersBit known ++ (known.contact.slack.map fun t => "slack: `" ++ t ++ "`").toList
    | none => []
  bullet (("**" ++ s.service ++ "**") :: fileCount s.files.length :: details)

def commentUnmappedLines (v : ImpactView) : List String :=
  if v.report.hasUnmapped then
    ("**Unmapped files:** " ++ toString v.report.unmapped.length) :: "" ::
      fileLines commentUnmapped bulletFile bulletMore v.report.unmapped ++ [""]
  else []

def commentFiles (v : ImpactView) (s : ServiceImpact) : List String :=
  ("### " ++ s.service) :: fileLines v.maxFiles bulletFile bulletMore s.files ++ [""]

def commentLines (v : ImpactView) : List String :=
  ["## ServiceOwners", "", "**Impacted services:** " ++ toString v.ranked.length, ""] ++
    (if v.ranked.isEmpty then ["_None_"] else v.ranked.map (commentService v)) ++ [""] ++
    v.commentUnmappedLines ++
    ["<details>", "<summary>Changed files by service</summary>", ""] ++
    (if v.ranked.isEmpty then ["_No mapped services._", ""] else []) ++
    v.ranked.flatMap (commentFiles v) ++
    ["</details>", ""]

def toComment (v : ImpactView) : String :=
  Text.joinLines (beginMarker :: v.commentLines ++ [endMarker])

end ImpactView

structure ServiceFiles where
  count : Nat
  files : List String
deriving DecidableEq, Repr

/-- The part of a report that is written as JSON. `services` maps a service to its files; it is
sorted by name. -/
structure ImpactOutput where
  diff : Option String
  impactedServices : List String
  services : List (String × ServiceFiles)
  unmappedFiles : List String
  overlaps : List (String × List String)
  totalFiles : Nat
deriving DecidableEq, Repr

namespace ImpactOutput

def toJson (o : ImpactOutput) : Json :=
  .obj <|
    Json.optional "diff" (o.diff.map .str) ++
    [("impacted_services", .strings o.impactedServices),
      ("services", .obj (o.services.map fun (name, entry) =>
        (name, .obj [("count", .ofNat entry.count), ("files", .strings entry.files)]))),
      ("unmapped_files", .strings o.unmappedFiles)] ++
    (if o.overlaps.isEmpty then []
      else [("overlaps", .obj (o.overlaps.map fun (path, names) => (path, .strings names)))]) ++
    [("total_files", .ofNat o.totalFiles)]

end ImpactOutput

namespace ImpactView

def output (v : ImpactView) : ImpactOutput where
  diff := v.diff
  impactedServices := v.report.serviceNames
  services := Json.sortFields
    (v.report.services.map fun s => (s.service, ⟨s.files.length, s.files⟩))
  unmappedFiles := v.report.unmapped
  overlaps := v.report.overlaps
  totalFiles := v.report.totalFiles

def toJson (v : ImpactView) : String :=
  v.output.toJson.pretty

def render (v : ImpactView) : ImpactFormat → String
  | .text => v.toText
  | .markdown => v.toMarkdown
  | .json => v.toJson
  | .comment => v.toComment

end ImpactView

end Ownership
