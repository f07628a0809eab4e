import Ownership.Workspace

set_option autoImplicit false

/-!
# Commands

What the tool does for its user. A command gives a text to print and an exit code, or an error; all
but `init` leave the tree alone.
-/
namespace Ownership

structure Outcome where
  output : String
  exitCode : Nat
deriving DecidableEq, Repr

namespace Outcome

def success : Nat := 0

def failure : Nat := 2

def unmapped : Nat := 3

def ok (output : String) : Outcome :=
  ⟨output, success⟩

end Outcome

namespace Location

/-- The root of the repository: the one that is given, seen from the working directory, or else the
one that version control knows, or else the working directory. -/
def repositoryRoot (git : Git) (given : Option String) (workingDirectory : String) : String :=
  match given with
  | some root => join workingDirectory root
  | none => (git.root workingDirectory).toOption.getD workingDirectory

end Location

inductive ChangeSource where
  | range (revisions : String)
  | lines (text : String)
deriving DecidableEq, Repr

namespace ChangeSource

def range? : ChangeSource → Option String
  | .range revisions => some revisions
  | .lines _ => none

def paths (git : Git) (root : String) : ChangeSource → Except GitError (List String)
  | .range revisions => git.changedPaths root revisions
  | .lines text => .ok ((Text.lines text.toList).map String.ofList)

end ChangeSource

namespace Workspace

def whoOwns (w : Workspace) (path : String) (explain : Bool) (format : OwnerFormat) :
    Except CommandError Outcome :=
  match Location.normalize (some w.root) path with
  | none => .error (.invalidPath path)
  | some path =>
    let view := OwnerView.ofExplanation (w.index.explain path) w.index w.catalog explain
    .ok (.ok (view.render format))

def impactOf (w : Workspace) (paths : List String) : ImpactReport :=
  w.index.impact (Location.normalizeAll (some w.root) paths)

def impacted (w : Workspace) (git : Git) (changes : ChangeSource) (format : ImpactFormat)
    (showFiles : Bool) : Except CommandError Outcome := do
  let paths ← (changes.paths git w.root).mapError .git
  let report := w.impactOf paths
  let view : ImpactView :=
    { report, catalog := w.catalog, diff := changes.range?, showFiles,
      maxFiles := w.settings.impact.maxFiles }
  let fails := w.settings.impact.failOnUnmapped && report.hasUnmapped
  return ⟨view.render format, if fails then Outcome.unmapped else Outcome.success⟩

def lintFiles (w : Workspace) (t : Tree) (git : Git) :
    Except CommandError (Option (List String)) :=
  if w.settings.lint.checkMatches || w.settings.lint.checkOverlaps then
    ((t.listing git w.root).mapError .listing).map some
  else .ok none

/-- An empty catalog is no catalog to check against. -/
def lintReport (w : Workspace) (files : Option (List String)) : LintReport :=
  w.index.lint
    { options := w.settings.lint, files, rejected := w.rejected
      catalog := if w.catalog.isEmpty then none else some w.catalog }

def lint (w : Workspace) (t : Tree) (git : Git) (format : LintFormat) :
    Except CommandError Outcome := do
  let report := w.lintReport (← w.lintFiles t git)
  let view : LintView := ⟨report, w.index.source⟩
  return ⟨view.render format, if report.isFailure then Outcome.failure else Outcome.success⟩

end Workspace

namespace Codeowners

def find? (t : Tree) (root : String) : Option String :=
  (locations.map (Location.join root)).find? t.isFile

def locate (t : Tree) (root : String) (given : Option String) : Except InitError String :=
  match given with
  | some location => if t.isFile location then .ok location else .error .notFound
  | none =>
    match find? t root with
    | some location => .ok location
    | none => .error .notFound

def generate (t : Tree) (root : String) (given : Option String) : Except InitError String := do
  let location ← locate t root given
  let text ← (t.readText location).mapError (.access location)
  return convert text

/-- Writes the first rules file. What is already there stays unless `force` is set. -/
def writeRules (t : Tree) (target content : String) (force : Bool) : Except InitError Tree :=
  if t.occupied target && !force then .error (.occupied target)
  else (t.write target content).mapError (.access target)

/-- Prints the first rules file, or writes it to the configured place. The tree is the one that is
left behind. -/
def init (t : Tree) (root : String) (settings : Settings) (given : Option String)
    (write force : Bool) : Except InitError Outcome × Tree :=
  match generate t root given with
  | .error e => (.error e, t)
  | .ok content =>
    if write then
      let target := Location.join root settings.rulesFile
      match writeRules t target content force with
      | .error e => (.error e, t)
      | .ok written => (.ok (.ok ("Wrote " ++ target)), written)
    else (.ok (.ok content), t)

end Codeowners

def EffectiveSettings.outcome (e : EffectiveSettings) : Outcome :=
  .ok e.toJson.pretty

end Ownership
