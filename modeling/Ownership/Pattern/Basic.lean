import Ownership.Pattern.Segment

set_option autoImplicit false

/-!
# Rule patterns

A pattern is anchored at the repository root. `compile` reads it, `accepts` decides paths, and
`covers` and `intersects` compare two patterns without looking at paths.
-/
namespace Ownership

inductive PatternError where
  | empty
  | rootOnly (pattern : String)
  | invalidSegment (pattern segment : String) (cause : Glob.GlobError)
deriving DecidableEq, Repr

def PatternError.message : PatternError → String
  | .empty => "empty pattern"
  | .rootOnly pattern =>
    "pattern '" ++ pattern ++ "' points at the repository root, not a file glob"
  | .invalidSegment pattern segment cause =>
    "invalid glob segment '" ++ segment ++ "' in pattern '" ++ pattern ++ "': " ++ cause.message

/-- A compiled pattern. `directory` tells that it was written with a final slash. -/
structure Pattern where
  raw : String
  segments : List Segment
  directory : Bool
deriving DecidableEq

namespace Pattern

def unifySlashes (cs : List Char) : List Char :=
  cs.map fun c => if c = '\\' then '/' else c

def dropDotSlashes : List Char → List Char
  | '.' :: '/' :: cs => dropDotSlashes cs
  | cs => cs

def dropAnchor (cs : List Char) : List Char :=
  match dropDotSlashes cs with
  | '/' :: rest => rest
  | rest => rest

def classify (pattern segment : String) : Except PatternError Segment :=
  if segment = "**" then .ok .anyDepth
  else if segment.toList.any fun c => c = '*' || c = '?' || c = '[' then
    match Glob.ofSegment segment with
    | .ok glob => .ok (.wildcard glob)
    | .error cause => .error (.invalidSegment pattern segment cause)
  else .ok (.literal segment)

/-- Consecutive `**` take what one takes. -/
def mergeDepths : List Segment → List Segment
  | .anyDepth :: .anyDepth :: rest => mergeDepths (.anyDepth :: rest)
  | s :: rest => s :: mergeDepths rest
  | [] => []

def endInDepth (segments : List Segment) : List Segment :=
  if segments.getLast? = some .anyDepth then segments else segments ++ [.anyDepth]

def compile (raw : String) : Except PatternError Pattern :=
  match Text.trim raw.toList with
  | [] => .error .empty
  | trimmed =>
    let body := dropAnchor (unifySlashes trimmed)
    let directory := body.getLast? == some '/'
    if body.all (· == '/') then .error (.rootOnly raw)
    else do
      let segments := mergeDepths (← (pathSegments (String.ofList body)).mapM (classify raw))
      return ⟨raw, if directory then endInDepth segments else segments, directory⟩

def acceptsEverything (p : Pattern) : Bool :=
  p.segments.all (· == .anyDepth)

def steps (p : Pattern) : List (Wild.Step Segment) :=
  p.segments.map Segment.step

def acceptsSegments (p : Pattern) (path : List String) : Bool :=
  Wild.scan Segment.accepts p.steps path

def accepts (p : Pattern) (path : String) : Bool :=
  p.acceptsSegments (pathSegments path)

/-- For each suffix of `other`, the longest first, whether `segments` cover it: whether they take
every path that it takes. -/
def coverRow (segments : List Segment) (other : List Segment) : List Bool :=
  match segments with
  | [] => Wild.emptyRow other
  | .anyDepth :: rest => Wild.runRow (coverRow rest other)
  | s :: rest => Wild.oneRow s.covers other (coverRow rest other)

def covers (p q : Pattern) : Bool :=
  (coverRow p.segments q.segments).headD false

def depthRow : List Segment → List Bool
  | [] => [true]
  | t :: ts =>
    let later := depthRow ts
    (t == .anyDepth && later.headD false) :: later

/-- One segment against each suffix of `other`; `row` has the answers for the segments after it. -/
def meetRow (s : Segment) : List Segment → List Bool → List Bool
  | t :: ts, b :: row =>
    let later := meetRow s ts row
    (if t = .anyDepth then later.headD false || b else s.intersects t && row.headD false) :: later
  | _, _ => [false]

/-- For each suffix of `other`, the longest first, whether it and `segments` may take a common
path. -/
def intersectRow (segments : List Segment) (other : List Segment) : List Bool :=
  match segments with
  | [] => depthRow other
  | .anyDepth :: rest => Wild.runRow (intersectRow rest other)
  | s :: rest => meetRow s other (intersectRow rest other)

def intersects (p q : Pattern) : Bool :=
  (intersectRow p.segments q.segments).headD false

end Pattern

end Ownership
