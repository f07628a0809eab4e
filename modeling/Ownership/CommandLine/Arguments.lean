set_option autoImplicit false

/-!
# Arguments

The words of a command line as options and operands. An option is `--name`, `--name value` or
`--name=value`, or a letter; letters without values may share one hyphen. Two hyphens alone end the
options.
-/
namespace Ownership

inductive UsageError where
  | unknownOption (word : String)
  | missingValue (name : String)
  | unexpectedValue (name : String)
  | repeatedOption (name : String)
  | badValue (name value : String)
  | conflict (first second : String)
  | unknownCommand (word : String)
  | missingCommand
  | missingOperand (name : String)
  | unexpectedOperand (word : String)
deriving DecidableEq, Repr

def UsageError.message : UsageError → String
  | .unknownOption word => "unexpected argument '" ++ word ++ "' found"
  | .missingValue name => "a value is required for '--" ++ name ++ "' but none was supplied"
  | .unexpectedValue name => "'--" ++ name ++ "' takes no value"
  | .repeatedOption name => "the argument '--" ++ name ++ "' cannot be used multiple times"
  | .badValue name value => "invalid value '" ++ value ++ "' for '--" ++ name ++ "'"
  | .conflict first second =>
    "the argument '--" ++ first ++ "' cannot be used with '--" ++ second ++ "'"
  | .unknownCommand word => "unrecognized subcommand '" ++ word ++ "'"
  | .missingCommand => "a subcommand is required"
  | .missingOperand name => "the argument <" ++ name ++ "> is required"
  | .unexpectedOperand word => "unexpected argument '" ++ word ++ "' found"

inductive OptionKind where
  | flag
  | counted
  | valued
deriving DecidableEq, Repr

structure OptionSpec where
  name : String
  letter : Option Char := none
  kind : OptionKind

/-- The options in order, each with its value or an empty text, and the operands. -/
structure Arguments where
  options : List (String × String) := []
  operands : List String := []

namespace Arguments

def has (a : Arguments) (name : String) : Bool :=
  a.options.any (·.1 == name)

def value? (a : Arguments) (name : String) : Option String :=
  (a.options.find? (·.1 == name)).map Prod.snd

def count (a : Arguments) (name : String) : Nat :=
  a.options.countP (·.1 == name)

def addOption (a : Arguments) (o : OptionSpec) (value : String) : Except UsageError Arguments :=
  if o.kind != .counted && a.has o.name then .error (.repeatedOption o.name)
  else .ok { a with options := a.options ++ [(o.name, value)] }

def isOption (word : String) : Bool :=
  match word.toList with
  | '-' :: _ :: _ => true
  | _ => false

def addLetters (specs : List OptionSpec) (word : String) (a : Arguments) :
    List Char → Except UsageError Arguments
  | [] => .ok a
  | c :: cs =>
    match specs.find? (·.letter == some c) with
    | some o => do addLetters specs word (← a.addOption o "") cs
    | none => .error (.unknownOption word)

def splitValue (cs : List Char) : String × Option String :=
  match cs.span (· != '=') with
  | (name, _ :: value) => (String.ofList name, some (String.ofList value))
  | (name, []) => (String.ofList name, none)

/-- Reads words. At the `outer` level the first operand is a command, and it is left with the words
after it. -/
def read (specs : List OptionSpec) (outer : Bool) (a : Arguments) :
    List String → Except UsageError (Arguments × List String)
  | [] => .ok (a, [])
  | word :: rest =>
    match word.toList with
    | ['-', '-'] => .ok ({ a with operands := a.operands ++ rest }, [])
    | '-' :: '-' :: cs =>
      let (name, value) := splitValue cs
      match specs.find? (·.name == name) with
      | none => .error (.unknownOption word)
      | some o =>
        match o.kind, value with
        | .valued, some v => do read specs outer (← a.addOption o v) rest
        | .valued, none =>
          match rest with
          | v :: rest =>
            if isOption v then .error (.missingValue name)
            else do read specs outer (← a.addOption o v) rest
          | [] => .error (.missingValue name)
        | _, some _ => .error (.unexpectedValue name)
        | _, none => do read specs outer (← a.addOption o "") rest
    | '-' :: c :: cs => do read specs outer (← addLetters specs word a (c :: cs)) rest
    | _ =>
      if outer then .ok (a, word :: rest)
      else read specs outer { a with operands := a.operands ++ [word] } rest

end Arguments

end Ownership
