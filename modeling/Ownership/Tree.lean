import Ownership.Location
import Ownership.Json.Basic

set_option autoImplicit false

/-!
# Directory trees

A file system as a value: regular files with their bytes, and directories with their entries sorted
by name. A location leads through the tree name by name; a dot stays in a directory, two dots go
back to the one around it. Writing makes no directories.

Left out are symbolic links and special files, permissions, names that are not Unicode, and faults
of the device: a write either replaces the whole content or leaves the tree alone, so a file that is
emptied and then not filled is no outcome here.
-/
namespace Ownership

inductive AccessError where
  | missing
  | notDirectory
  | isDirectory
  | badName
  | notText
deriving DecidableEq, Repr

def AccessError.message : AccessError → String
  | .missing => "No such file or directory (os error 2)"
  | .notDirectory => "Not a directory (os error 20)"
  | .isDirectory => "Is a directory (os error 21)"
  | .badName => "file name contained an unexpected NUL byte"
  | .notText => "stream did not contain valid UTF-8"

inductive Tree where
  | file (content : ByteArray)
  | directory (entries : List (String × Tree))

namespace Tree

def empty : Tree :=
  .directory []

def child? (t : Tree) (name : String) : Option Tree :=
  match t with
  | .directory entries => Json.getField? name entries
  | .file _ => none

def at? : Tree → List String → Option Tree
  | t, [] => some t
  | t, name :: path =>
    match t.child? name with
    | some inner => at? inner path
    | none => none

def put (t : Tree) (path : List String) (new : Tree) : Tree :=
  match path, t with
  | [], _ => new
  | name :: path, .directory entries =>
    let inner := (Json.getField? name entries).getD empty
    .directory (Json.setField name (put inner path new) entries)
  | name :: path, .file _ => .directory [(name, put empty path new)]

def erase (t : Tree) (path : List String) : Tree :=
  match path, t with
  | [name], .directory entries => .directory (entries.filter (·.1 != name))
  | name :: path, .directory entries =>
    match Json.getField? name entries with
    | some inner => .directory (Json.setField name (erase inner path) entries)
    | none => .directory entries
  | _, t => t

mutual

/-- The regular files, by the names that lead to them. What is named `.git` is passed over. -/
def files : Tree → List (List String)
  | .file _ => [[]]
  | .directory entries => filesOfEntries entries

def filesOfEntries : List (String × Tree) → List (List String)
  | [] => []
  | (name, t) :: entries =>
    (if name = ".git" then [] else (files t).map (name :: ·)) ++ filesOfEntries entries

end

def parts (location : String) : List String :=
  (Text.splitAll (· == '/') location.toList).map String.ofList

/-- Follows the parts of a location from the place that `place` leads to. -/
def locateFrom (t : Tree) : List String → List String → Except AccessError (List String)
  | place, [] => .ok place
  | place, part :: rest =>
    match t.at? place with
    | some (.directory entries) =>
      if part = "" ∨ part = "." then locateFrom t place rest
      else if part = ".." then locateFrom t place.dropLast rest
      else if (Json.getField? part entries).isSome then locateFrom t (place ++ [part]) rest
      else .error .missing
    | some (.file _) => .error .notDirectory
    | none => .error .missing

def locate (t : Tree) (location : String) : Except AccessError (List String) :=
  if '\x00' ∈ location.toList then .error .badName else t.locateFrom [] (parts location)

def find (t : Tree) (location : String) : Except AccessError Tree := do
  let place ← t.locate location
  match t.at? place with
  | some found => return found
  | none => throw .missing

def occupied (t : Tree) (location : String) : Bool :=
  (t.find location).toOption.isSome

def isFile (t : Tree) (location : String) : Bool :=
  match t.find location with
  | .ok (.file _) => true
  | _ => false

def decode (content : ByteArray) : Except AccessError String :=
  match String.fromUTF8? content with
  | some text => .ok text
  | none => .error .notText

def readText (t : Tree) (location : String) : Except AccessError String := do
  match ← t.find location with
  | .file content => decode content
  | .directory _ => throw .isDirectory

/-- The parts before the last name of a location, that name, and whether a slash follows it. -/
def lastName? (location : String) : Option (List String × String × Bool) :=
  match (parts location).reverse.span (· = "") with
  | (slashes, name :: around) => some (around.reverse, name, !slashes.isEmpty)
  | (_, []) => none

/-- Makes a file or replaces its content. The directory has to be there, and with a slash at the
end the location is one of a directory. -/
def write (t : Tree) (location text : String) : Except AccessError Tree := do
  if '\x00' ∈ location.toList then
    throw .badName
  match lastName? location with
  | none => throw .isDirectory
  | some (around, name, slash) =>
    let place ← t.locateFrom [] around
    match t.at? place with
    | some (.directory entries) =>
      if name = "." ∨ name = ".." ∨ slash then
        throw .isDirectory
      match Json.getField? name entries with
      | some (.directory _) => throw .isDirectory
      | _ => return t.put (place ++ [name]) (.file text.toUTF8)
    | some (.file _) => throw .notDirectory
    | none => throw .missing

end Tree

end Ownership
