import Ownership.Yaml.Token

set_option autoImplicit false

/-!
# YAML nodes

A document as a tree. An anchor is a number: the count of names that were in use before it. A name
that is used again gets a new number, which a further name may then share; of the nodes with one
number the last one counts.
-/
namespace Ownership.Yaml

structure Marks where
  anchor : Option Nat := none
  tag : Option String := none

namespace Marks

def isEmpty (m : Marks) : Bool :=
  m.anchor.isNone && m.tag.isNone

end Marks

inductive Node where
  | scalar (marks : Marks) (plain : Bool) (text : String)
  | list (marks : Marks) (items : List Node)
  | table (marks : Marks) (entries : List (Node × Node))
  | reference (anchor : Nat)

namespace Node

def blank : Node :=
  .scalar {} true ""

/-- The tokens that are left, the numbers of the anchor names, and the meanings of tag handles. -/
structure Input where
  tokens : List Token
  anchors : List (String × Nat)
  handles : List (String × List UInt8)

abbrev Reading := StateT Input (Except Fault)

def peek : Reading (Option Token) := do
  return (← get).tokens.head?

def drop : Reading Unit :=
  modify fun input => { input with tokens := input.tokens.drop 1 }

def lookUp {α : Type} (name : String) (pairs : List (String × α)) : Option α :=
  (pairs.find? (·.1 == name)).map Prod.snd

def addAnchor (name : String) : Reading Nat := do
  let input ← get
  let others := input.anchors.filter (·.1 != name)
  set { input with anchors := (name, input.anchors.length) :: others }
  return input.anchors.length

def readReference (name : String) : Reading Node := do
  drop
  match lookUp name (← get).anchors with
  | some anchor => return .reference anchor
  | none => throw .unknownAnchor

def resolveTag (t : Tag) : Reading (Option String) := do
  if t.handle == "" then
    return Tag.text? t.suffix
  match lookUp t.handle (← get).handles with
  | some meaning => return Tag.text? (meaning ++ t.suffix)
  | none => throw .tag

def readMarks : Reading Marks := do
  match ← peek with
  | some (.anchor name) =>
    drop
    match ← peek with
    | some (.tag t) =>
      drop
      let tag ← resolveTag t
      return { anchor := some (← addAnchor name), tag }
    | _ => return { anchor := some (← addAnchor name) }
  | some (.tag t) =>
    drop
    let tag ← resolveTag t
    match ← peek with
    | some (.anchor name) =>
      drop
      return { anchor := some (← addAnchor name), tag }
    | _ => return { tag }
  | _ => return {}

def readEmpty (marks : Marks) : Reading Node :=
  if marks.isEmpty then throw .nesting else return .scalar marks true ""

def readComma : Reading Unit := do
  match ← peek with
  | some .comma => drop
  | _ => throw .nesting

mutual

/-- Reads a node. Only a `block` may hold block collections, and where a list may be `loose` its
items need no indentation of their own. -/
def read (block loose : Bool) : Nat → Reading Node
  | 0 => throw .nesting
  | fuel + 1 => do
    match ← peek with
    | some (.reference name) => readReference name
    | _ =>
      let marks ← readMarks
      match ← peek with
      | some (.scalar plain text) =>
        drop
        return .scalar marks plain text
      | some .flowList =>
        drop
        return .list marks (← readFlowItems true fuel)
      | some .flowTable =>
        drop
        return .table marks (← readFlowEntries true fuel)
      | some .item => if loose then return .list marks (← readLooseItems fuel) else readEmpty marks
      | some .blockList =>
        if block then
          drop
          return .list marks (← readItems fuel)
        else readEmpty marks
      | some .blockTable =>
        if block then
          drop
          return .table marks (← readEntries fuel)
        else readEmpty marks
      | _ => readEmpty marks

def readItems : Nat → Reading (List Node)
  | 0 => throw .nesting
  | fuel + 1 => do
    match ← peek with
    | some .item =>
      drop
      let item ← match ← peek with
        | some .item | some .blockEnd => pure blank
        | _ => read true false fuel
      return item :: (← readItems fuel)
    | some .blockEnd =>
      drop
      return []
    | _ => throw .nesting

def readLooseItems : Nat → Reading (List Node)
  | 0 => throw .nesting
  | fuel + 1 => do
    match ← peek with
    | some .item =>
      drop
      let item ← match ← peek with
        | some .item | some .key | some .value | some .blockEnd => pure blank
        | _ => read true false fuel
      return item :: (← readLooseItems fuel)
    | _ => return []

def readEntries : Nat → Reading (List (Node × Node))
  | 0 => throw .nesting
  | fuel + 1 => do
    match ← peek with
    | some .key =>
      drop
      let key ← readPart fuel
      let value ← match ← peek with
        | some .value =>
          drop
          readPart fuel
        | _ => pure blank
      return (key, value) :: (← readEntries fuel)
    | some .blockEnd =>
      drop
      return []
    | _ => throw .nesting

def readPart : Nat → Reading Node
  | 0 => throw .nesting
  | fuel + 1 => do
    match ← peek with
    | some .key | some .value | some .blockEnd => return blank
    | _ => read true true fuel

def readFlowItems (first : Bool) : Nat → Reading (List Node)
  | 0 => throw .nesting
  | fuel + 1 => do
    match ← peek with
    | some .flowListEnd =>
      drop
      return []
    | _ =>
      if !first then
        readComma
      match ← peek with
      | some .flowListEnd =>
        drop
        return []
      | some .key =>
        drop
        let pair ← readPair fuel
        return .table {} [pair] :: (← readFlowItems false fuel)
      | _ =>
        let item ← read false false fuel
        return item :: (← readFlowItems false fuel)

/-- A pair that stands in a flow list for a table with one entry. An indicator in the place of its
key is passed over. -/
def readPair : Nat → Reading (Node × Node)
  | 0 => throw .nesting
  | fuel + 1 => do
    let key ← match ← peek with
      | some .value | some .comma | some .flowListEnd =>
        drop
        pure blank
      | _ => read false false fuel
    return (key, ← readFlowValue fuel)

def readFlowValue : Nat → Reading Node
  | 0 => throw .nesting
  | fuel + 1 => do
    match ← peek with
    | some .value =>
      drop
      match ← peek with
      | some .comma | some .flowListEnd | some .flowTableEnd => return blank
      | _ => read false false fuel
    | _ => return blank

def readFlowEntries (first : Bool) : Nat → Reading (List (Node × Node))
  | 0 => throw .nesting
  | fuel + 1 => do
    match ← peek with
    | some .flowTableEnd =>
      drop
      return []
    | _ =>
      if !first then
        readComma
      match ← peek with
      | some .flowTableEnd =>
        drop
        return []
      | some .key =>
        drop
        let key ← match ← peek with
          | some .value | some .comma | some .flowTableEnd => pure blank
          | _ => read false false fuel
        let value ← readFlowValue fuel
        return (key, value) :: (← readFlowEntries false fuel)
      | _ =>
        let key ← read false false fuel
        return (key, blank) :: (← readFlowEntries false fuel)

end

end Node

end Ownership.Yaml
