import Ownership.Index
import Ownership.Json.Basic

set_option autoImplicit false

/-!
# The services that a change touches

One pass over the changed paths groups them by owner. Only the order of the services depends on the
order of the paths: a service stands where its first path stands, and every list of files is sorted.
-/
namespace Ownership

structure ServiceImpact where
  service : String
  files : List String
deriving DecidableEq, Repr

/-- `overlaps` maps a path to the services of all rules that accept it, in file order, if more than
one does; it is sorted by path. -/
structure ImpactReport where
  services : List ServiceImpact
  unmapped : List String
  overlaps : List (String × List String)
deriving DecidableEq, Repr

namespace ImpactReport

def serviceNames (r : ImpactReport) : List String :=
  r.services.map (·.service)

def filesFor? (r : ImpactReport) (service : String) : Option (List String) :=
  (r.services.find? (·.service == service)).map (·.files)

def hasUnmapped (r : ImpactReport) : Bool :=
  !r.unmapped.isEmpty

def totalFiles (r : ImpactReport) : Nat :=
  r.services.foldr (fun s count => s.files.length + count) r.unmapped.length

def isEmpty (r : ImpactReport) : Bool :=
  r.services.isEmpty && r.unmapped.isEmpty

end ImpactReport

def sortPaths (paths : List String) : List String :=
  paths.mergeSort

/-- The report as far as the pass has come, its lists of files in the order of the paths. `slots`
has the place of each service among the services. -/
structure Grouping extends ImpactReport where
  slots : List (String × Nat)
  seen : List String
deriving DecidableEq, Repr

namespace Grouping

def empty : Grouping :=
  ⟨⟨[], [], []⟩, [], []⟩

def slotFor (g : Grouping) (service : String) : Nat × Grouping :=
  match g.slots.lookup service with
  | some slot => (slot, g)
  | none =>
    let slot := g.services.length
    (slot, { g with
      services := g.services ++ [⟨service, []⟩]
      slots := g.slots ++ [(service, slot)] })

def fileAt (slot : Nat) (path : String) (g : Grouping) : Grouping :=
  { g with services := g.services.modify slot fun s => { s with files := s.files ++ [path] } }

def fileUnder (g : Grouping) (service path : String) : Grouping :=
  let (slot, g) := g.slotFor service
  g.fileAt slot path

def visit (ix : Index) (g : Grouping) (path : String) : Grouping :=
  if g.seen.contains path then g
  else
    let g := { g with seen := g.seen ++ [path] }
    let accepting := ix.acceptingIndices path
    match accepting.getLast?.bind (ix.rules[·]?) with
    | none => { g with unmapped := g.unmapped ++ [path] }
    | some winner =>
      let g := g.fileUnder winner.service path
      if 1 < accepting.length then
        let services := (accepting.filterMap (ix.rules[·]?)).map (·.service)
        { g with overlaps := Json.setField path services g.overlaps }
      else g

def finish (g : Grouping) : ImpactReport :=
  { g.toImpactReport with
    services := g.services.map fun s => { s with files := sortPaths s.files }
    unmapped := sortPaths g.unmapped }

end Grouping

def Index.impact (ix : Index) (paths : List String) : ImpactReport :=
  (paths.foldl (Grouping.visit ix) .empty).finish

end Ownership
