import Facade.Files.Store

/-!
# Archives of classes

A library is an archive of class files, or an archive that holds such an archive as its entry
`classes.jar`.  The ending of the path tells which of the two it is.  The name of an entry ends
before the first null character of what is recorded as its name.
-/

namespace Facade

/-- Why an archive cannot be read. -/
inductive ArchiveError where
  /-- The file cannot be read. -/
  | file (cause : FileError)
  /-- The content is no archive. -/
  | notArchive
  /-- An archive lacks an entry. -/
  | noEntry (name : String)
  /-- A library lacks the archive of its classes. -/
  | noClasses (path : Path) (entries : List String)
  /-- The ending of the path is not that of a library. -/
  | unsupported (suffix : String)
deriving DecidableEq, Repr

/-- What is said about an archive that cannot be read. -/
def ArchiveError.message : ArchiveError → String
  | .file e => e.message
  | .notArchive => "File is not a zip file"
  | .noEntry name =>
      Text.quoted ("There is no item named " ++ Text.quoted name ++ " in the archive")
  | .noClasses path entries =>
      "No 'classes.jar' found in AAR '" ++ path.text ++ "'. Available entries: " ++
        Text.quotedList entries
  | .unsupported suffix =>
      "Unsupported file format '" ++ suffix ++ "'. Expected '.jar' or '.aar'."

/-- The entries of an archive, in the order in which they were added. -/
abbrev Entries := List (String × Content)

namespace Entries

/-- The name of an entry, from what is recorded as its name. -/
def nameOf (recorded : String) : String :=
  String.ofList (recorded.toList.takeWhile (· ≠ '\x00'))

/-- The names of the entries. -/
def names (entries : Entries) : List String :=
  entries.map Prod.fst

/-- The content of an entry; of several entries with the same name the last one counts. -/
def read (entries : Entries) (name : String) : Except ArchiveError Content :=
  match entries.reverse.find? fun e => e.1 = name with
  | some e => .ok e.2
  | none => .error (.noEntry name)

end Entries

/-- The entries of a content. -/
def Content.entries : Content → Except ArchiveError Entries
  | .archive entries => .ok entries
  | .text _ => .error .notArchive

namespace Path

/-- Whether a path is that of an archive of class files. -/
def isJar (p : Path) : Bool :=
  p.hasSuffix ".jar"

/-- Whether a path is that of an archive that holds the archive of its class files. -/
def isAar (p : Path) : Bool :=
  p.hasSuffix ".aar"

end Path

/-- The entry that holds the class files of a library. -/
def classesEntry : String := "classes.jar"

namespace Store

/-- The entries of the archive at a path. -/
def readArchive (s : Store) (path : Path) : Except ArchiveError Entries := do
  let content ← (s.read path).mapError .file
  content.entries

/-- The entries of the archive of class files that a library is or holds. -/
def openLibrary (s : Store) (path : Path) : Except ArchiveError Entries :=
  if path.isJar then s.readArchive path
  else if path.isAar then do
    let entries ← s.readArchive path
    if classesEntry ∈ entries.names then
      let classes ← entries.read classesEntry
      classes.entries
    else .error (.noClasses path entries.names)
  else .error (.unsupported path.suffix)

end Store

end Facade
