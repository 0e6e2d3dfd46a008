import Facade.Declaration.Basic
import Facade.Files.Archive

/-!
# Class files

**Input.**  A library, or a directory of class files.

**Algorithm.**  Every class file that is found names a class: its path without the ending, with
dots for slashes.  Nested and anonymous classes, which have a dollar sign in their names, and
descriptions of modules and packages are passed over.  The entries of a library are visited in the
order of their names, the files of a directory in the order of the parts of their paths.
-/

namespace Facade
namespace ClassFile

/-- The ending of class files. -/
def ending : List Char := ".class".toList

/-- The ends of the names that no class has. -/
def describers : List (List Char) :=
  ["module-info".toList, "package-info".toList]

/-- The path of a class file without its ending. -/
def stem (cs : List Char) : List Char :=
  if Text.endsWithChars ending cs then cs.take (cs.length - ending.length) else cs

/-- The class that a class file is for. -/
def className? (entry : String) : Option String :=
  let cs := stem entry.toList
  if '$' ∈ cs ∨ describers.any (Text.endsWithChars · cs) then none
  else some (Text.replaceChar '/' "." (String.ofList cs))

/-- A class that was found, and where. -/
structure Found where
  name : String
  location : Location
deriving DecidableEq, Repr

/-- The class of a class file, unless it has no name. -/
def found? (entry location : String) : Option Found :=
  match className? entry with
  | some name => if name = "" then none else some ⟨name, { path := location }⟩
  | none => none

/-- The classes of an archive. -/
def inArchive (path : Path) (entries : Entries) : List Found :=
  (entries.names.mergeSort fun a b => decide (a ≤ b)).filterMap fun entry =>
    if Text.endsWithChars ending entry.toList then found? entry (path.text ++ "!/" ++ entry)
    else none

/-- The classes below a directory. -/
def inDirectory (s : Store) (path : Path) : List Found :=
  let places := (s.below path).map Prod.fst
  (places.mergeSort Path.partsLe).filterMap fun parts =>
    if Text.endsWithChars ending (parts.getLastD "").toList then
      found? ("/".intercalate parts) (path.join ⟨.current, parts⟩).text
    else none

/-- The classes of a library or directory. -/
def inInput (s : Store) (path : Path) : Except ArchiveError (List Found) :=
  if path.isJar || path.isAar then do
    .ok (inArchive path (← s.openLibrary path))
  else do
    (s.checkLength path).mapError .file
    .ok (inDirectory s path)

/-- The classes of all inputs with the place where each was found first. -/
def locations (s : Store) (inputs : List Path) :
    Except ArchiveError (Dictionary String Location) := do
  let found ← inputs.mapM (inInput s)
  .ok (found.flatten.foldl (fun known f => known.putNew f.name f.location) [])

end ClassFile
end Facade
