import Ownership.Text.Basic

set_option autoImplicit false

/-!
# Version control

What the version control program is asked and how its answers are read. The program itself is a
function from questions to answers, so everything here is about that function.
-/
namespace Ownership

inductive GitError where
  | notFound
  | failed (arguments cause : String)
  | notRun (cause : String)
deriving DecidableEq, Repr

def GitError.message : GitError → String
  | .notFound => "git executable not found"
  | .failed arguments cause => "git " ++ arguments ++ " failed: " ++ cause
  | .notRun cause => "Failed to run git: " ++ cause

structure Git where
  run : (directory : String) → (arguments : List String) → Except GitError String

namespace Git

def absent : Git :=
  ⟨fun _ _ => .error .notFound⟩

/-- The program where nothing is under version control: every question fails with its arguments. -/
def outside : Git :=
  ⟨fun _ arguments => .error (.failed (" ".intercalate arguments) "not a git repository")⟩

def trimmed (cs : List Char) : String :=
  String.ofList (Text.trim cs)

def answerLines (answer : String) : List String :=
  ((Text.lines answer.toList).map trimmed).filter (· ≠ "")

def answerParts (answer : String) : List String :=
  ((Text.splitAll (· == '\x00') answer.toList).map String.ofList).filter (· ≠ "")

def root (g : Git) (directory : String) : Except GitError String := do
  return trimmed (← g.run directory ["rev-parse", "--show-toplevel"]).toList

def changedPaths (g : Git) (directory range : String) : Except GitError (List String) := do
  return answerLines (← g.run directory ["diff", "--name-only", range])

def trackedPaths (g : Git) (directory : String) : Except GitError (List String) := do
  return answerParts (← g.run directory ["ls-files", "-z"])

end Git

end Ownership
