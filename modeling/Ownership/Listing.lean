import Ownership.Git
import Ownership.Impact
import Ownership.Tree

set_option autoImplicit false

/-!
# The files of a repository

A repository under version control has the files that are tracked; any other has the regular files
below its root. Either way the list is sorted and holds each repository path once.
-/
namespace Ownership

inductive ListingError where
  | git (e : GitError)
  | walk (location : String) (cause : AccessError)
deriving DecidableEq, Repr

def ListingError.message : ListingError → String
  | .git e => e.message
  | .walk location cause =>
    "Failed to walk repository: IO error for operation on " ++ location ++ ": " ++ cause.message

namespace Tree

def filesBelow (t : Tree) (location : String) : Except ListingError (List String) :=
  match t.find location with
  | .ok found => .ok (found.files.map ("/".intercalate ·))
  | .error cause => .error (.walk location cause)

def listing (t : Tree) (git : Git) (root : String) : Except ListingError (List String) := do
  let found ←
    if t.occupied (Location.join root ".git") then (git.trackedPaths root).mapError .git
    else t.filesBelow root
  return (sortPaths (found.filterMap (Location.normalize none))).eraseReps

end Tree

end Ownership
