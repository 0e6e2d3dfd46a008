import Facade.Files.Store
import Facade.Log
import Facade.Output.Manifest
import Facade.Session.Request
import Facade.Source.Render

/-!
# Writing the output

**Input.**  The results of a session and the output directory.

**Algorithm.**  Every generated file is written below the directory of its package; of two files
with the same path the later one stays.  Then the manifest is written.  A file that has no text is
left empty, and nothing is written after it.

**Results.**
* `keys_writeAll`: the paths that were written are those of the results with a file, in the order in
  which each was written first.
-/

namespace Facade
namespace Output

/-- The path of the file with the given package and name. -/
def pathFor (directory : Path) (package name : String) : Path :=
  let folder :=
    if package.isEmpty then directory
    else (Text.splitAt '.' package).foldl (fun p segment => p.join (.ofString segment)) directory
  folder.join (.ofString (name ++ ".kt"))

/-- The path of a generated file. -/
def pathOf (directory : Path) (file : Source.File) : Path :=
  pathFor directory file.package file.name

/-- The name of the manifest. -/
def manifestName : String := "kustom-export-sources.json"

/-- The path of the manifest. -/
def manifestPath (directory : Path) : Path :=
  directory.join ⟨.current, [manifestName]⟩

/-- The files that were written, with the sources of each. -/
abbrev Written := Dictionary Path (List Location)

/-- Why the output cannot be written. -/
inductive Error where
  /-- A file cannot be written. -/
  | file (cause : FileError)
  /-- A file is not below the output directory. -/
  | outside (path directory : Path)
  /-- A file has no text. -/
  | textless (cause : Text.Overlong)
deriving DecidableEq, Repr

/-- What is said when the output cannot be written. -/
def Error.message : Error → String
  | .file e => e.message
  | .outside path directory =>
      Text.quoted path.text ++ " is not in the subpath of " ++ Text.quoted directory.bareText ++
        " OR one path is relative and the other is absolute."
  | .textless o => o.message

/-- What was done, and what was written or why not all was. -/
structure Outcome where
  store : Store
  log : List Log.Line := []
  result : Except Error Written

/-- The lines about a file that was written. -/
def writtenLines (written : Written) (path : Path) : List Log.Line :=
  Log.debug ("Wrote " ++ path.text) ::
    if written.has path then
      [Log.warning (path.text ++ " generated more than once, keeping the last one")]
    else []

/-- Leaves a file without text empty. -/
def leaveEmpty (s : Store) (path : Path) (cause : Text.Overlong) : Outcome :=
  match s.writeDeep path (.text "") with
  | (next, .error e) => { store := next, result := .error (.file e) }
  | (next, .ok ()) => { store := next, result := .error (.textless cause) }

/-- Writes the files of results in order. -/
def writeAll (directory : Path) (s : Store) (written : Written) : List ExportResult → Outcome
  | [] => { store := s, result := .ok written }
  | r :: rest =>
      match r.file with
      | none => writeAll directory s written rest
      | some file =>
          let path := pathOf directory file
          match file.text with
          | .error o => leaveEmpty s path o
          | .ok text =>
              match s.writeDeep path (.text text) with
              | (next, .error e) => { store := next, result := .error (.file e) }
              | (next, .ok ()) =>
                  let later := writeAll directory next (written.put path r.sources) rest
                  { later with log := writtenLines written path ++ later.log }

/-- Writes the files of a session. -/
def write (directory : Path) (s : Store) (results : List ExportResult) : Outcome :=
  writeAll directory s [] results

/-- The entry of the manifest for a file. -/
def manifestEntry (directory : Path) (entry : Path × List Location) :
    Except Error (String × List String) :=
  match entry.1.relativeTo? directory with
  | some parts => .ok ("/".intercalate parts, entry.2.map Location.text)
  | none => .error (.outside entry.1 directory)

/-- Writes the manifest. -/
def writeManifest (directory : Path) (s : Store) (written : Written) : Store × Except Error Unit :=
  match written.mapM (manifestEntry directory) with
  | .error e => (s, .error e)
  | .ok entries =>
      let (next, result) := s.writeDeep (manifestPath directory) (.text (Manifest.render entries))
      (next, result.mapError .file)

/-- The paths of the results with a file. -/
def paths (directory : Path) (results : List ExportResult) : List Path :=
  results.filterMap fun r => r.file.map (pathOf directory)

/-- The files written are those of the results in order, each path at its first place. -/
theorem keys_writeAll
    (directory : Path) (s : Store) (written all : Written) (results : List ExportResult)
    (h : (writeAll directory s written results).result = .ok all) :
    all.keys =
      (paths directory results).foldl
        (fun known path => if path ∈ known then known else known ++ [path]) written.keys := by
  induction results generalizing s written with
  | nil =>
      simp only [writeAll, Except.ok.injEq] at h
      simp [paths, h]
  | cons r rest ih =>
      rw [writeAll] at h
      cases hfile : r.file with
      | none =>
          simp only [hfile] at h
          simpa [paths, hfile] using ih s written h
      | some file =>
          simp only [hfile] at h
          split at h
          · rw [leaveEmpty] at h
            split at h <;> cases h
          split at h
          · cases h
          · next next _ =>
              have hlater := ih next (written.put (pathOf directory file) r.sources) h
              rw [hlater, Dictionary.keys_put]
              simp [paths, hfile]

end Output
end Facade
