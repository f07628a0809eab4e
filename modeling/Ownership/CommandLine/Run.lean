import Ownership.CommandLine.Invocation

set_option autoImplicit false

/-!
# Running a command line

From words to what is printed. Settings are read first, then standard input if it is needed, then
the workspace, so of several things that are wrong the first of these is reported.
-/
namespace Ownership

structure Surroundings where
  tree : Tree
  git : Git
  workingDirectory : String
  input : ByteArray

/-- What becomes of a command line. `idle` is the answer to no words at all. -/
inductive Reply where
  | done (outcome : Outcome)
  | refused (e : CommandError)
  | misused (e : UsageError)
  | idle

namespace Reply

def ofResult : Except CommandError Outcome → Reply
  | .ok outcome => .done outcome
  | .error e => .refused e

def exitCode : Reply → Nat
  | .done outcome => outcome.exitCode
  | _ => Outcome.failure

def output? : Reply → Option String
  | .done outcome => some outcome.output
  | _ => none

def error? : Reply → Option String
  | .refused e => some e.message
  | .misused e => some e.message
  | _ => none

end Reply

namespace Invocation

def overrides (i : Invocation) : Overrides :=
  let given (b : Bool) : Option Bool := if b then some true else none
  match i.command with
  | .impacted diff _ _ _ maxFiles failOnUnmapped =>
    { i.shared.overrides with diff, maxFiles, failOnUnmapped := given failOnUnmapped }
  | .lint strict checkMatches checkOverlaps _ =>
    { i.shared.overrides with
      strict := given strict
      checkMatches := given checkMatches
      checkOverlaps := given checkOverlaps }
  | _ => i.shared.overrides

/-- The changed paths' source: standard input, or the range that the settings give. -/
def changes (s : Surroundings) (settings : Settings) (stdin : Bool) :
    Except CommandError ChangeSource :=
  if stdin then
    match Tree.decode s.input with
    | .ok text => .ok (.lines text)
    | .error cause => .error (.input cause)
  else .ok (.range settings.impact.diff)

def look (s : Surroundings) (root : String) (effective : EffectiveSettings) :
    Command → Except CommandError Outcome
  | .whoOwns path explain format => do
    (← Workspace.load s.tree root effective.settings).whoOwns path explain format
  | .impacted _ stdin format showFiles _ _ => do
    let source ← changes s effective.settings stdin
    (← Workspace.load s.tree root effective.settings).impacted s.git source format showFiles
  | .lint _ _ _ format => do
    (← Workspace.loadLenient s.tree root effective.settings).lint s.tree s.git format
  | .init .. | .config => .ok effective.outcome

/-- Runs a command; the tree is the one that is left behind. -/
def run (i : Invocation) (s : Surroundings) : Except CommandError Outcome × Tree :=
  let root := Location.repositoryRoot s.git i.shared.repoRoot s.workingDirectory
  match EffectiveSettings.load s.tree root i.overrides with
  | .error e => (.error (.settings e), s.tree)
  | .ok effective =>
    match i.command with
    | .init codeowners write force =>
      let given := codeowners.map (Location.join s.workingDirectory)
      let (result, tree) := Codeowners.init s.tree root effective.settings given write force
      (result.mapError .init, tree)
    | command => (look s root effective command, s.tree)

def execute (words : List String) (s : Surroundings) : Reply × Tree :=
  if isBlank words then (.idle, s.tree)
  else
    match read words with
    | .error e => (.misused e, s.tree)
    | .ok i =>
      let (result, tree) := i.run s
      (.ofResult result, tree)

end Invocation

end Ownership
