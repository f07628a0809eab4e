import Ownership.Rules

set_option autoImplicit false

/-!
# Who owns a path

An index is a list of rules in the order of their file. The last rule that accepts a path decides.
-/
namespace Ownership

inductive Resolution where
  | owned (service : String) (rule : Nat)
  | unmapped
deriving DecidableEq, Repr

namespace Resolution

def service? : Resolution → Option String
  | .owned service _ => some service
  | .unmapped => none

def rule? : Resolution → Option Nat
  | .owned _ rule => some rule
  | .unmapped => none

def isUnmapped : Resolution → Bool
  | .owned .. => false
  | .unmapped => true

end Resolution

structure Index where
  source : String
  rules : List Rule

structure Evaluation where
  index : Nat
  rule : Rule
  accepted : Bool

structure Explanation where
  path : String
  result : Resolution
  evaluations : List Evaluation

namespace Explanation

def accepted (e : Explanation) : List Evaluation :=
  e.evaluations.filter (·.accepted)

def isWinner (e : Explanation) (v : Evaluation) : Bool :=
  e.result.rule? == some v.index

end Explanation

namespace Index

def evaluate (ix : Index) (path : String) : List Evaluation :=
  let parts := pathSegments path
  ix.rules.zipIdx.map fun (rule, i) => ⟨i, rule, rule.compiled.acceptsSegments parts⟩

def outcome (evaluations : List Evaluation) : Resolution :=
  match evaluations.reverse.find? (·.accepted) with
  | some v => .owned v.rule.service v.index
  | none => .unmapped

/-- Tries the rules from the last to the first and stops at the first that accepts. -/
def resolve (ix : Index) (path : String) : Resolution :=
  let parts := pathSegments path
  match ix.rules.zipIdx.reverse.find? fun (rule, _) => rule.compiled.acceptsSegments parts with
  | some (rule, i) => .owned rule.service i
  | none => .unmapped

def acceptingRules (ix : Index) (path : String) : List (Rule × Nat) :=
  let parts := pathSegments path
  ix.rules.zipIdx.filter fun (rule, _) => rule.compiled.acceptsSegments parts

def acceptingIndices (ix : Index) (path : String) : List Nat :=
  (ix.acceptingRules path).map Prod.snd

def explain (ix : Index) (path : String) : Explanation :=
  let evaluations := ix.evaluate path
  ⟨path, outcome evaluations, evaluations⟩

end Index

end Ownership
