import Ownership.Pattern.Basic
import Ownership.Text.Quoted

set_option autoImplicit false

/-!
# Rules files

A rules file has one rule a line: a pattern, blanks, and the service that owns what the pattern
accepts. Blank lines are skipped, and a `#` at a line's start or after a blank begins a comment.
`readLines` gives the verdict on each line that has content, in order; the strict reading stops at
the first bad line and the lenient one keeps the two kinds apart.
-/
namespace Ownership

def defaultSource : String := "SERVICEOWNERS"

/-- A rule with its compiled pattern. `line` counts from one; a rule built in code has none. -/
structure Rule where
  pattern : String
  service : String
  line : Option Nat
  compiled : Pattern
  isCompiled : Pattern.compile pattern = .ok compiled

namespace Rule

theorem ext_text {r s : Rule} (hp : r.pattern = s.pattern) (hs : r.service = s.service)
    (hl : r.line = s.line) : r = s := by
  obtain ⟨p, v, l, c, hc⟩ := r
  obtain ⟨q, w, m, d, hd⟩ := s
  obtain rfl : p = q := hp
  obtain rfl : v = w := hs
  obtain rfl : l = m := hl
  obtain rfl : c = d := by simpa using hc.symm.trans hd
  rfl

instance : DecidableEq Rule := fun r s =>
  decidable_of_iff (r.pattern = s.pattern ∧ r.service = s.service ∧ r.line = s.line)
    ⟨fun h => ext_text h.1 h.2.1 h.2.2, fun h => ⟨congrArg pattern h, congrArg service h,
      congrArg line h⟩⟩

def ofPattern (pattern service : String) (line : Option Nat) : Except PatternError Rule :=
  match h : Pattern.compile pattern with
  | .ok compiled => .ok ⟨pattern, service, line, compiled, h⟩
  | .error e => .error e

def accepts (r : Rule) (path : String) : Bool :=
  r.compiled.accepts path

end Rule

inductive LineFault where
  | columnCount (found : Nat) (text : String)
  | pattern (e : PatternError)
deriving DecidableEq, Repr

def LineFault.message : LineFault → String
  | .columnCount found text =>
    "expected 2 columns `<pattern> <service>`, found " ++ toString found ++ ": " ++ Text.quote text
  | .pattern e => e.message

structure LineError where
  source : String
  line : Nat
  fault : LineFault
deriving DecidableEq, Repr

def LineError.message (e : LineError) : String :=
  e.source ++ ":" ++ toString e.line ++ ": " ++ e.fault.message

namespace Rules

/-- The text before a comment. Quotes of either kind open and close a span without comments. -/
def stripCommentFrom (quoted afterBlank : Bool) : List Char → List Char
  | [] => []
  | c :: cs =>
    if c = '#' && !quoted && afterBlank then []
    else c :: stripCommentFrom (if c = '\'' || c = '"' then !quoted else quoted) (Text.isBlank c) cs

def stripComment (line : List Char) : List Char :=
  stripCommentFrom false true line

def readLine (source : String) (number : Nat) (raw : List Char) :
    Option (Except LineError Rule) :=
  match Text.columns (stripComment raw) with
  | [] => none
  | [pattern, service] => some <|
    match Rule.ofPattern (String.ofList pattern) (String.ofList service) (some number) with
    | .ok rule => .ok rule
    | .error e => .error ⟨source, number, .pattern e⟩
  | columns => some (.error ⟨source, number, .columnCount columns.length (String.ofList raw)⟩)

def readFrom (source : String) : Nat → List (List Char) → List (Except LineError Rule)
  | _, [] => []
  | number, raw :: rest =>
    match readLine source number raw with
    | some verdict => verdict :: readFrom source (number + 1) rest
    | none => readFrom source (number + 1) rest

def readLines (source text : String) : List (Except LineError Rule) :=
  readFrom source 1 (Text.lines text.toList)

def firstError {ε α : Type} : List (Except ε α) → Except ε (List α)
  | [] => .ok []
  | .error e :: _ => .error e
  | .ok a :: rest => (firstError rest).map (a :: ·)

/-- The strict reading: no rule counts if some line is bad. -/
def parse (source text : String) : Except LineError (List Rule) :=
  firstError (readLines source text)

/-- The lenient reading: the good lines and the bad ones. -/
def parseLenient (source text : String) : List Rule × List LineError :=
  let verdicts := readLines source text
  (verdicts.filterMap fun | .ok r => some r | .error _ => none,
   verdicts.filterMap fun | .ok _ => none | .error e => some e)

end Rules

end Ownership
