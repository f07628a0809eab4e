import Ownership.Toml.Number

set_option autoImplicit false

/-!
# TOML documents

A document is a tree of tables. How a table came to be decides what may still be added to it: a
table that only a longer header implied may get a header of its own, one made by a dotted key grows
by dotted keys only, and values are closed.
-/
namespace Ownership.Toml

inductive Origin where
  | header
  | implied
  | dotted
deriving DecidableEq, Repr

/-- What a key stands for: a closed value, a table, or an array of tables that ends in `last`. -/
inductive Item where
  | value (v : Json)
  | table (origin : Origin) (fields : List (String × Item))
  | tables (others : List (List (String × Item))) (last : List (String × Item))

abbrev Fields := List (String × Item)

namespace Item

mutual

def toJson : Item → Json
  | .value v => v
  | .table _ fields => .obj (fieldsToJson fields)
  | .tables others last => .arr (tablesToJson others ++ [.obj (fieldsToJson last)])

def fieldsToJson : List (String × Item) → List (String × Json)
  | [] => []
  | (key, item) :: fields => (key, toJson item) :: fieldsToJson fields

def tablesToJson : List (List (String × Item)) → List Json
  | [] => []
  | fields :: rest => .obj (fieldsToJson fields) :: tablesToJson rest

end

end Item

namespace Fields

/-- Changes the table that `path` leads to, making those on the way that are missing. A dotted key
does not lead into a table with a header; an array of tables stands for its last one. -/
def alter (dotted : Bool) (change : Origin → Fields → Except Fault Fields) :
    List String → Origin → Fields → Except Fault Fields
  | [], origin, fields => change origin fields
  | key :: path, _, fields => do
    let item ← match Json.getField? key fields with
      | none =>
        let origin := if dotted then Origin.dotted else .implied
        pure (Item.table origin (← alter dotted change path origin []))
      | some (.table origin inner) =>
        if dotted && origin == .header then throw .redefinition
        else pure (.table origin (← alter dotted change path origin inner))
      | some (.tables others last) =>
        pure (.tables others (← alter dotted change path .header last))
      | some (.value _) => throw .redefinition
    return Json.setField key item fields

/-- Adds a key of a table, which must not be there yet. A dotted key's table has to be made by
dotted keys. -/
def addTo (dotted : Bool) (key : String) (v : Json) (origin : Origin) (fields : Fields) :
    Except Fault Fields :=
  if dotted && origin != .dotted then .error .redefinition
  else
    match Json.getField? key fields with
    | none => .ok (Json.setField key (.value v) fields)
    | some _ => .error .redefinition

def insert (key : List String) (v : Json) (fields : Fields) : Except Fault Fields :=
  match key.getLast? with
  | some last =>
    alter true (addTo (1 < key.length) last v) key.dropLast .header fields
  | none => .error .key

def openTable (key : String) (fields : Fields) : Except Fault Fields :=
  match Json.getField? key fields with
  | none => .ok (Json.setField key (.table .header []) fields)
  | some (.table .implied inner) => .ok (Json.setField key (.table .header inner) fields)
  | some _ => .error .redefinition

def openElement (key : String) (fields : Fields) : Except Fault Fields :=
  match Json.getField? key fields with
  | none => .ok (Json.setField key (.tables [] []) fields)
  | some (.tables others last) => .ok (Json.setField key (.tables (others ++ [last]) []) fields)
  | some _ => .error .redefinition

def atHeader (act : String → Fields → Except Fault Fields) (header : List String)
    (fields : Fields) : Except Fault Fields :=
  match header.getLast? with
  | some last => alter false (fun _ inner => act last inner) header.dropLast .header fields
  | none => .error .key

end Fields

def readItems (readValue : List Char → Except Fault (Json × List Char)) :
    Nat → List Char → Except Fault (List Json × List Char)
  | 0, _ => .error .nesting
  | fuel + 1, cs => do
    match skipLines cs with
    | ']' :: rest => return ([], rest)
    | cs =>
      let (item, rest) ← readValue cs
      match skipLines rest with
      | ',' :: rest =>
        let (items, rest) ← readItems readValue fuel rest
        return (item :: items, rest)
      | ']' :: rest => return ([item], rest)
      | _ => throw .nesting

def readEntry (readValue : List Char → Except Fault (Json × List Char)) (cs : List Char) :
    Except Fault ((List String × Json) × List Char) := do
  let (key, rest) ← readKey cs
  match rest with
  | '=' :: rest =>
    let (v, rest) ← readValue (skipSpace rest)
    return ((key, v), rest)
  | _ => throw .key

def readEntries (readValue : List Char → Except Fault (Json × List Char)) :
    Nat → Fields → List Char → Except Fault (Fields × List Char)
  | 0, _, _ => .error .nesting
  | fuel + 1, fields, cs => do
    let ((key, v), rest) ← readEntry readValue cs
    let fields ← fields.insert key v
    match skipSpace rest with
    | ',' :: rest => readEntries readValue fuel fields rest
    | '\x7d' :: rest => return (fields, rest)
    | _ => throw .nesting

def readWord (word : String) (v : Json) (cs : List Char) : Except Fault (Json × List Char) :=
  if word.toList.isPrefixOf cs then .ok (v, cs.drop word.length) else .error .value

def readValue : Nat → List Char → Except Fault (Json × List Char)
  | depth, cs =>
    match cs, depth with
    | '[' :: rest, depth + 1 => do
      let (items, rest) ← readItems (readValue depth) (cs.length + 1) rest
      return (.arr items, rest)
    | '\x7b' :: rest, depth + 1 => do
      match skipSpace rest with
      | '\x7d' :: rest => return (.obj [], rest)
      | rest =>
        let (fields, rest) ← readEntries (readValue depth) (cs.length + 1) [] rest
        return (.obj (Item.fieldsToJson fields), rest)
    | c :: _, _ =>
      if c == '[' || c == '\x7b' then .error .depth
      else if c == '"' || c == '\'' then do
        let (text, rest) ← readString cs
        return (.str text, rest)
      else if c == 't' then readWord "true" (.bool true) cs
      else if c == 'f' then readWord "false" (.bool false) cs
      else readScalar cs
    | [], _ => .error .value

structure State where
  root : Fields := []
  header : List String := []

namespace State

def addEntry (s : State) (key : List String) (v : Json) : Except Fault State := do
  let root ← s.root.alter false (fun _ fields => fields.insert key v) s.header .header
  return { s with root }

def addHeader (s : State) (act : String → Fields → Except Fault Fields) (header : List String) :
    Except Fault State := do
  return ⟨← s.root.atHeader act header, header⟩

def readFrom : Nat → State → List Char → Except Fault State
  | 0, _, _ => .error .nesting
  | fuel + 1, s, cs => do
    match skipSpace cs with
    | [] => return s
    | '[' :: '[' :: rest =>
      let (header, rest) ← readKey rest
      match rest with
      | ']' :: ']' :: rest =>
        readFrom fuel (← s.addHeader Fields.openElement header) (← endLine rest)
      | _ => throw .nesting
    | '[' :: rest =>
      let (header, rest) ← readKey rest
      match rest with
      | ']' :: rest => readFrom fuel (← s.addHeader Fields.openTable header) (← endLine rest)
      | _ => throw .nesting
    | c :: cs =>
      if c == '#' || c == '\n' || c == '\r' then readFrom fuel s (← endLine (c :: cs))
      else
        let ((key, v), rest) ← readEntry (readValue (maxDepth - 1)) (c :: cs)
        readFrom fuel (← s.addEntry key v) (← endLine rest)

end State

def withoutMark : List Char → List Char
  | c :: cs => if c.toNat == 0xFEFF then cs else c :: cs
  | [] => []

def parse (text : String) : Except Fault Json := do
  let cs := withoutMark text.toList
  let s ← State.readFrom (cs.length + 1) {} cs
  return .obj (Item.fieldsToJson s.root)

end Ownership.Toml
