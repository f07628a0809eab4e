set_option autoImplicit false

/-!
# Sequences with gaps

A pattern over any kind of element is a list of steps: a test that one element has to pass, or a
run of any length. Whether the steps use up a whole sequence is decided in time proportional to the
product of the two lengths: `accepts` goes from the last step to the first and keeps an answer for
each suffix of the sequence, `scan` goes from the first to the last and keeps one for each prefix.
-/
namespace Ownership.Wild

/-- `one t` takes exactly one element, `run` any number of them, none included. -/
inductive Step (τ : Type) where
  | one (test : τ)
  | run
deriving DecidableEq, Repr

/-- `Cut passes steps xs`: the sequence can be cut into consecutive blocks, one for each step. -/
inductive Cut {τ α : Type} (passes : τ → α → Bool) : List (Step τ) → List α → Prop where
  | nil : Cut passes [] []
  | one {t : τ} {x : α} {steps : List (Step τ)} {xs : List α} (h : passes t x = true)
      (rest : Cut passes steps xs) : Cut passes (.one t :: steps) (x :: xs)
  | run {steps : List (Step τ)} {xs : List α} (block : List α) (rest : Cut passes steps xs) :
      Cut passes (.run :: steps) (block ++ xs)

def emptyRow {α : Type} : List α → List Bool
  | [] => [true]
  | _ :: xs => false :: emptyRow xs

/-- The entry for `x :: xs` asks `p x` and the entry for `xs`; the empty suffix has no element. -/
def oneRow {α : Type} (p : α → Bool) : List α → List Bool → List Bool
  | x :: xs, _ :: row => (p x && row.headD false) :: oneRow p xs row
  | _, _ => [false]

/-- The entry for a suffix asks for some suffix of it. -/
def runRow : List Bool → List Bool
  | [] => []
  | b :: row =>
    let later := runRow row
    (b || later.headD false) :: later

/-- For each suffix of `xs`, the longest first, whether `steps` use it up. -/
def reach {τ α : Type} (passes : τ → α → Bool) : List (Step τ) → List α → List Bool
  | [], xs => emptyRow xs
  | .one t :: steps, xs => oneRow (passes t) xs (reach passes steps xs)
  | .run :: steps, xs => runRow (reach passes steps xs)

def accepts {τ α : Type} (passes : τ → α → Bool) (steps : List (Step τ)) (xs : List α) : Bool :=
  (reach passes steps xs).headD false

/-- For each prefix of `xs`, the shortest first, whether it is empty. -/
def startRow {α : Type} (xs : List α) : List Bool :=
  true :: List.replicate xs.length false

/-- The entry for a prefix asks for some prefix of it; `any` tells of those before the row. -/
def sweep (any : Bool) : List Bool → List Bool
  | [] => []
  | b :: row => (any || b) :: sweep (any || b) row

def advance {τ α : Type} (passes : τ → α → Bool) (xs : List α) (row : List Bool) :
    Step τ → List Bool
  | .one t => false :: row.zipWith (fun b x => b && passes t x) xs
  | .run => sweep false row

/-- Goes on from the row for the steps so far; once they use up no prefix, no more steps do. -/
def scanFrom {τ α : Type} (passes : τ → α → Bool) (xs : List α) (row : List Bool) :
    List (Step τ) → Bool
  | [] => row.getLastD false
  | s :: steps =>
    let next := advance passes xs row s
    if next.any id then scanFrom passes xs next steps else false

def scan {τ α : Type} (passes : τ → α → Bool) (steps : List (Step τ)) (xs : List α) : Bool :=
  scanFrom passes xs (startRow xs) steps

end Ownership.Wild
