import Ownership.CommandLine.Run

set_option autoImplicit false

/-!
# The program

The outer layer: it takes from the file system what a command line can look at, runs the command
line on that tree, prints the reply, and writes the one file that a command may have made. It starts
no other program, so questions to version control have no answer here.
-/
namespace Ownership.Main

def locationOf (names : List String) : String :=
  "/" ++ "/".intercalate names

def isDirectory (location : String) : IO Bool := do
  match ← (IO.FS.realPath location).toBaseIO with
  | .ok path => path.isDir
  | .error _ => return false

def look? (location : String) : IO (Option Tree) := do
  match ← (IO.FS.readBinFile location).toBaseIO with
  | .ok content => return some (.file content)
  | .error _ => return if ← isDirectory location then some .empty else none

def addParts (t : Tree) (place : List String) : List String → IO Tree
  | [] => return t
  | part :: rest => do
    if part = "" ∨ part = "." then addParts t place rest
    else if part = ".." then addParts t place.dropLast rest
    else
      let place := place ++ [part]
      if (t.at? place).isSome then addParts t place rest
      else
        match ← look? (locationOf place) with
        | some found => addParts (t.put place found) place rest
        | none => return t

def add (t : Tree) (location : String) : IO Tree :=
  addParts t [] (Tree.parts location)

partial def addBelow (t : Tree) (place : List String) : IO Tree := do
  let mut t := t
  for entry in ← (← IO.FS.realPath (locationOf place)).readDir do
    let inner := place ++ [entry.fileName]
    if entry.fileName ≠ ".git" && (t.at? inner).isNone then
      match (← entry.path.symlinkMetadata).type with
      | .dir => t ← addBelow (t.put inner .empty) inner
      | .file => t := t.put inner (.file ByteArray.empty)
      | _ => pure ()
    else if entry.fileName ≠ ".git" then
      if let some (.directory _) := t.at? inner then
        t ← addBelow t inner
  return t

def needsListing (i : Invocation) (settings : Settings) : Bool :=
  match i.command with
  | .lint .. => settings.lint.checkMatches || settings.lint.checkOverlaps
  | _ => false

def givenCodeowners (i : Invocation) (workingDirectory : String) : List String :=
  match i.command with
  | .init (some location) _ _ => [Location.join workingDirectory location]
  | _ => []

/-- The part of the file system that a command can look at, and the location that it may write. -/
def gather (i : Invocation) (workingDirectory : String) : IO (Tree × Option String) := do
  let root := Location.repositoryRoot Git.absent i.shared.repoRoot workingDirectory
  let t ← add (← add .empty root) (Location.join root EffectiveSettings.fileName)
  match EffectiveSettings.load t root i.overrides with
  | .error _ => return (t, none)
  | .ok effective =>
    let settings := effective.settings
    let names := [settings.rulesFile, settings.servicesFile, ".git"] ++ Codeowners.locations
    let t ← (names.map (Location.join root) ++ givenCodeowners i workingDirectory).foldlM add t
    let listed ← match needsListing i settings, t.locate root with
      | true, .ok place => addBelow t place
      | _, _ => pure t
    return (listed, some (Location.join root settings.rulesFile))

partial def readAll (stream : IO.FS.Stream) (done : ByteArray) : IO ByteArray := do
  let more ← stream.read 65536
  if more.isEmpty then return done else readAll stream (done ++ more)

def readInput (i : Invocation) : IO ByteArray := do
  match i.command with
  | .impacted _ true _ _ _ _ => readAll (← IO.getStdin) ByteArray.empty
  | _ => return ByteArray.empty

def save (before after : Tree) (location : String) : IO Unit := do
  match after.readText location, before.readText location with
  | .ok text, .ok old => if text ≠ old then IO.FS.writeFile location text
  | .ok text, .error _ => IO.FS.writeFile location text
  | .error _, _ => return ()

def print (reply : Reply) : IO Unit := do
  if let some output := reply.output? then
    IO.println output
  if let some message := reply.error? then
    IO.eprintln ("error: " ++ message)

def run (words : List String) : IO UInt32 := do
  let workingDirectory := (← IO.currentDir).toString
  let (tree, target, input) ← match Invocation.read words with
    | .ok i => do
      let (tree, target) ← gather i workingDirectory
      pure (tree, target, ← readInput i)
    | .error _ => pure (Tree.empty, none, ByteArray.empty)
  let (reply, after) :=
    Invocation.execute words { tree, git := Git.absent, workingDirectory, input }
  if let some location := target then
    save tree after location
  print reply
  return reply.exitCode.toUInt32

end Ownership.Main

def main (words : List String) : IO UInt32 :=
  Ownership.Main.run words
