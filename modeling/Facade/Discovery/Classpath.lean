import Facade.Files.Archive

/-!
# Class paths

**Input.**  The inputs of a run, and a directory for what has to be extracted.

**Algorithm.**  An input that holds the archive of its classes gives the extracted archive, which is
named after the input, provided that a file of this name can be written in the directory; any other
input stands for itself.
-/

namespace Facade

/-- Where the virtual machine looks for classes. -/
structure Classpath where
  entries : List String := []
  /-- What was extracted, by file name. -/
  extracted : Dictionary String Content := []

namespace Classpath

/-- The name of the file that the classes of an input are extracted to. -/
def extractedName (input : Path) : String :=
  input.stem ++ "-" ++ classesEntry

/-- The file that the classes of an input are extracted to. -/
def target (directory input : Path) : Path :=
  directory.join ⟨.current, [extractedName input]⟩

/-- Adds the entry of one input. -/
def add (s : Store) (directory : Path) (known : Classpath) (input : Path) :
    Except ArchiveError Classpath :=
  if input.isAar then do
    let entries ← s.readArchive input
    let classes ← entries.read classesEntry
    -- the tree is kept as it is, since no library is among the extracted files
    let _ ← (s.write (target directory input) classes).mapError .file
    .ok
      { entries := known.entries ++ [(target directory input).text]
        extracted := known.extracted.put (extractedName input) classes }
  else .ok { known with entries := known.entries ++ [input.text] }

/-- The class path of the inputs. -/
def ofInputs (s : Store) (directory : Path) (inputs : List Path) : Except ArchiveError Classpath :=
  inputs.foldlM (add s directory) {}

end Classpath

end Facade
