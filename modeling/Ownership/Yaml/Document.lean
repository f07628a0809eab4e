import Ownership.Yaml.Node
import Ownership.Yaml.Value

set_option autoImplicit false

/-!
# YAML documents

A text holds at most one document. Its data come from the tree of nodes: scalars are given values,
aliases are replaced by what they name, and a table's keys have to differ. Nesting and the number
of aliases that are followed are bounded, so a small text cannot stand for endless data.
-/
namespace Ownership.Yaml

namespace Node

mutual

/-- How many starts and ends of nodes a document has. -/
def size : Node → Nat
  | .scalar .. => 1
  | .reference _ => 1
  | .list _ items => sizeOfItems items + 2
  | .table _ entries => sizeOfEntries entries + 2

def sizeOfItems : List Node → Nat
  | [] => 0
  | item :: items => size item + sizeOfItems items

def sizeOfEntries : List (Node × Node) → Nat
  | [] => 0
  | (key, value) :: entries => size key + size value + sizeOfEntries entries

end

def anchor? : Node → Option Nat
  | .scalar marks .. => marks.anchor
  | .list marks _ => marks.anchor
  | .table marks _ => marks.anchor
  | .reference _ => none

mutual

def nodes : Node → List Node
  | .scalar marks plain text => [.scalar marks plain text]
  | .reference anchor => [.reference anchor]
  | .list marks items => .list marks items :: nodesOfItems items
  | .table marks entries => .table marks entries :: nodesOfEntries entries

def nodesOfItems : List Node → List Node
  | [] => []
  | item :: items => nodes item ++ nodesOfItems items

def nodesOfEntries : List (Node × Node) → List Node
  | [] => []
  | (key, value) :: entries => nodes key ++ (nodes value ++ nodesOfEntries entries)

end

end Node

/-- The name in a tag of the application's own, which starts with an exclamation mark; one more mark
in front of the name does not count. Marks alone are a name. -/
def localTag? (tag : Option String) : Option String :=
  match tag.map String.toList with
  | some ['!'] | some ['!', '!'] => some "!"
  | some ('!' :: '!' :: name) | some ('!' :: name) => some (String.ofList name)
  | _ => none

def coreTag (name : String) : String :=
  "tag:yaml.org,2002:" ++ name

def required {α : Type} : Option α → Except Fault α
  | some a => .ok a
  | none => .error .tag

def untaggedValue (plain : Bool) (text : String) : Except Fault Datum :=
  if plain then plainValue text else .ok (.text text)

/-- The value of a scalar. A core tag has to fit its text, and any other tag makes it text. -/
def scalarValue (tag : Option String) (plain : Bool) (text : String) : Except Fault Datum :=
  match localTag? tag, tag with
  | some name, _ => (untaggedValue plain text).map (.tagged name)
  | none, none => untaggedValue plain text
  | none, some tag =>
    if tag == coreTag "bool" then (required (boolean? text)).map .bool
    else if tag == coreTag "int" then do return .int (← required (← readInteger text))
    else if tag == coreTag "float" then (required (float? text)).map .float
    else if tag == coreTag "null" then if isNull text then .ok .null else .error .tag
    else .ok (.text text)

def withTag (tag : Option String) (d : Datum) : Datum :=
  match localTag? tag with
  | some name => .tagged name d
  | none => d

def checkKeys : List (Datum × Datum) → Except Fault Unit
  | [] => .ok ()
  | (key, _) :: entries =>
    if entries.any fun (k, _) => key.same k then .error .duplicateKey else checkKeys entries

abbrev Building := StateT Nat (Except Fault)

def follow (nodes : List Node) : Node → Building Node
  | .reference anchor => do
    match ← get with
    | 0 => throw .repetition
    | left + 1 =>
      set left
      match nodes.reverse.find? (·.anchor? == some anchor) with
      | some n => return n
      | none => throw .unknownAnchor
  | n => return n

/-- The data of a node whose collections are nested at most `depth` deep. -/
def build (nodes : List Node) : Nat → Node → Building Datum
  | _, .scalar marks plain text => scalarValue marks.tag plain text
  | depth + 1, .list marks items => do
    let items ← items.mapM fun item => do build nodes depth (← follow nodes item)
    return withTag marks.tag (.list items)
  | depth + 1, .table marks entries => do
    let entries ← entries.mapM fun (key, value) => do
      let key ← build nodes depth (← follow nodes key)
      return (key, ← build nodes depth (← follow nodes value))
    checkKeys entries
    return withTag marks.tag (.table entries)
  | _, _ => throw .depth

def maxDepth : Nat := 128

/-- How many aliases may be followed for each node's start or end. -/
def maxRepetition : Nat := 100

def Node.toDatum (root : Node) : Except Fault Datum :=
  (build root.nodes maxDepth root).run' (maxRepetition * root.size)

def isKnownVersion (major minor : Nat) : Bool :=
  major == 1 && (minor == 1 || minor == 2)

/-- Reads directives: the version at most once, and a handle's meaning at most once. -/
def readDirectives (versioned : Bool) (handles : List (String × List UInt8)) :
    List Token → Except Fault (List (String × List UInt8) × List Token)
  | .directive (.version major minor) :: tokens =>
    if versioned || !isKnownVersion major minor then .error .directive
    else readDirectives true handles tokens
  | .directive (.handle name meaning) :: tokens =>
    if handles.any (·.1 == name) then .error .directive
    else readDirectives versioned (handles ++ [(name, meaning)]) tokens
  | tokens => .ok (handles, tokens)

def builtinHandles : List (String × List UInt8) :=
  [("!", [0x21]), ("!!", (coreTag "").toUTF8.toList)]

def readRoot (handles : List (String × List UInt8)) (tokens : List Token) :
    Except Fault (Node × List Token) := do
  let (root, input) ← (Node.read true false (4 * tokens.length + 8)).run
    ⟨tokens, [], handles ++ builtinHandles⟩
  return (root, input.tokens)

def checkEnd : List Token → Except Fault Unit
  | [] => .ok ()
  | .documentEnd :: tokens => checkEnd tokens
  | _ => .error .moreDocuments

def rootOfTokens (tokens : List Token) : Except Fault (Option Node) := do
  match tokens with
  | [] => return none
  | .directive d :: rest =>
    let (handles, rest) ← readDirectives false [] (.directive d :: rest)
    match rest with
    | .documentStart :: rest => content handles rest
    | _ => throw .directive
  | .documentStart :: rest => content [] rest
  | tokens =>
    let (root, rest) ← readRoot [] tokens
    checkEnd rest
    return some root
where
  content (handles : List (String × List UInt8)) (tokens : List Token) :
      Except Fault (Option Node) := do
    match tokens with
    | [] | .documentEnd :: _ =>
      checkEnd tokens
      return some Node.blank
    | .documentStart :: _ | .directive _ :: _ => throw .moreDocuments
    | tokens =>
      let (root, rest) ← readRoot handles tokens
      checkEnd rest
      return some root

def parse (text : String) : Except Fault Datum := do
  let tokens ← Token.ofText text.toList
  match ← rootOfTokens tokens with
  | some root => root.toDatum
  | none => return .null

end Ownership.Yaml
