import Facade.CommandLine.Basic
import Facade.Files.Zip

/-!
# The program

The files that a command line is about are read into a tree, the command line is run on the tree,
and what has changed in the tree is done to the files.  No virtual machine is linked in, so
nothing is told about any class.
-/

namespace Facade
namespace Program

/-- The text of the path to a place. -/
def placeText (place : Place) : String :=
  "/" ++ "/".intercalate place

/-- How deep directories may be nested: no system takes paths of more parts. -/
def maxDepth : Nat := 2048

/-- Adds what is at a place, with all that is below it down to a depth. -/
def load (s : Store) : (depth : Nat) → Place → IO Store
  | 0, _ => return s
  | depth + 1, place => do
      let path := (← IO.currentDir) / placeText place
      if ← path.isDir then
        let entries ← path.readDir
        entries.foldlM (fun s entry => load s depth (place ++ [entry.fileName]))
          (s.putNode place .dir)
      else if ← path.pathExists then
        let library := Path.ofString (placeText place)
        let bytes ← if library.isJar || library.isAar then IO.FS.readBinFile path else pure .empty
        return s.putNode place (.file (Zip.content 2 bytes))
      else return s

/-- Adds what a path leads to. -/
def loadPath (s : Store) (path : Path) : IO Store := do
  let place := s.resolve path
  let file := (← IO.currentDir) / placeText place
  if ← file.pathExists then
    let above := (s.makeDirs ⟨.root, place.dropLast⟩).1
    load above maxDepth place
  else return s

/-- Does to the files what has changed in the tree: what is gone is removed, directories are made,
and generated texts are written. -/
def save (before after : Store) : IO Unit := do
  let deepestFirst := before.nodes.mergeSort fun a b => decide (b.1.1 ≤ a.1.1)
  for ((_, place), node) in deepestFirst do
    if (after.node? place).isNone then
      match node with
      | .dir => IO.FS.removeDir (placeText place)
      | .file _ => IO.FS.removeFile (placeText place)
  for ((_, place), node) in after.nodes do
    match node with
    | .dir => IO.FS.createDirAll (placeText place)
    | .file (.text text) => if !text.isEmpty then IO.FS.writeFile (placeText place) text
    | .file (.archive _) => pure ()

/-- What is said when help is asked for. -/
def usage : String :=
  "usage: kustom-export " ++
    " ".intercalate (CommandLine.Choice.all.map fun c => "[" ++ c.label ++ "]") ++ " inputs..."

/-- Shows how a run ended, and gives its exit status. -/
def conclude : CommandLine.Ending → IO UInt32
  | .exit status => return status.toUInt32
  | .stopped stop => do
      match stop.message? with
      | none => IO.println usage
      | some message => IO.eprintln ("kustom-export: error: " ++ message)
      return stop.status.toUInt32
  | .failed e => do
      IO.eprintln e.message
      return 1

/-- The paths that a command line is about: its inputs, and the output directory unless it is too
close to the root to be changed.  A path with a null character leads nowhere. -/
def relevantPaths (s : Store) (words : List String) : List Path :=
  match CommandLine.parse none words with
  | .error _ => []
  | .ok settings =>
      let directories := settings.outputDir.toList.map Path.ofString
      let paths := directories.filter (fun d => !Generation.isNearRoot s d) ++
        settings.inputs.map Path.ofString
      paths.filter fun p => !p.hasNull

/-- Runs a command line on the files. -/
def run (words : List String) : IO UInt32 := do
  let current := Path.ofString (← IO.currentDir).toString
  let start := Store.empty current.parts
  let before ← (relevantPaths start words).foldlM loadPath start
  let done := CommandLine.run before {} none words
  done.log.forM fun line => IO.eprintln line.text
  save before done.store
  conclude done.ending

end Program
end Facade

/-- Runs the command line. -/
def main (words : List String) : IO UInt32 :=
  Facade.Program.run words
