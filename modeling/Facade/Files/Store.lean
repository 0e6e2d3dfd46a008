import Facade.Dictionary
import Facade.Files.Path
import Facade.Text.Quoted

/-!
# File trees

**Input.**  A tree of directories and files, with the place of the current directory.

**Algorithm.**  A path is followed part by part from where it starts; every place on the way has
to be a directory, and two dots lead back to the directory above.  A part that is too long is found
out when it is looked up in its directory; a null character, or a path that is too long as a whole,
before anything is looked up.  Missing directories are made in one pass along the parts.  A tree is
removed from below; its top goes last, by the same path, which may have lost a directory on the way.

**Results.**
* `keyOf_inj`: a place is found by its key.
* `node?_putNode_self` and `node?_putNode_of_ne`: setting the node at a place changes no other
  place.
-/

namespace Facade

/-- What a file holds. -/
inductive Content where
  /-- Plain text. -/
  | text (s : String)
  /-- An archive of named entries. -/
  | archive (entries : List (String × Content))
deriving Inhabited

/-- A directory or a file. -/
inductive Node where
  | dir
  | file (content : Content)
deriving Inhabited

/-- A place in a tree: the names that lead to it from the root. -/
abbrev Place := List String

/-- A tree of directories and files. -/
structure Store where
  /-- The place of the current directory. -/
  current : Place
  /-- What is at each place, with the depth of the place before it; the root is always a
  directory. -/
  nodes : Dictionary (Nat × Place) Node
deriving Inhabited

/-- Why a path cannot be used. -/
inductive FileFault where
  /-- There is nothing at a place on the way. -/
  | missing
  /-- A file is in the way. -/
  | notDirectory
  /-- There is a directory where a file is wanted. -/
  | isDirectory
  /-- There is something already. -/
  | taken
  /-- The path, or a part of it, is too long. -/
  | tooLong
  /-- There is a null character in the path. -/
  | nullCharacter
deriving DecidableEq, Repr

/-- The words of a fault, with its number if it has one. -/
def FileFault.text : FileFault → String
  | missing => "[Errno 2] No such file or directory"
  | notDirectory => "[Errno 20] Not a directory"
  | isDirectory => "[Errno 21] Is a directory"
  | taken => "[Errno 17] File exists"
  | tooLong => "[Errno 36] File name too long"
  | nullCharacter => "embedded null byte"

/-- A fault of a path. -/
structure FileError where
  fault : FileFault
  path : Path
deriving DecidableEq, Repr

/-- What is said about a path that cannot be used; a path with a null character is not shown. -/
def FileError.message (e : FileError) : String :=
  if e.fault = .nullCharacter then e.fault.text
  else e.fault.text ++ ": " ++ Text.quoted e.path.text

namespace Store

/-- The key of a place; the depth comes first because it tells most places apart at once. -/
def keyOf (place : Place) : Nat × Place :=
  (place.length, place)

/-- The tree that has nothing but its current directory. -/
def empty (current : Place) : Store :=
  ⟨current, (List.range current.length).map fun n => (keyOf (current.take (n + 1)), .dir)⟩

/-- What is at a place. -/
def node? (s : Store) (place : Place) : Option Node :=
  if place = [] then some .dir else s.nodes.get? (keyOf place)

/-- The tree with another node at a place. -/
def putNode (s : Store) (place : Place) (node : Node) : Store :=
  { s with nodes := s.nodes.put (keyOf place) node }

/-- The place that one part leads to. -/
def step (place : Place) (part : String) : Place :=
  if part = ".." then place.dropLast else place ++ [part]

/-- Whether a place is the current directory or above it; two dots lead back from there even when
the directory has been removed. -/
def isHeld (s : Store) (place : Place) : Bool :=
  (Path.afterParts? place s.current).isSome

/-- Follows one part from a place, which has to be a directory. -/
def follow (s : Store) (place : Place) (part : String) : Except FileFault Place :=
  match s.node? place with
  | some .dir => if Path.isLongPart part then .error .tooLong else .ok (step place part)
  | some (.file _) => .error .notDirectory
  | none => if part = ".." ∧ s.isHeld place then .ok (step place part) else .error .missing

/-- Follows parts from a place. -/
def walk (s : Store) (place : Place) : List String → Except FileFault Place
  | [] => .ok place
  | part :: rest =>
      match s.follow place part with
      | .error fault => .error fault
      | .ok next => s.walk next rest

/-- The place where a path starts. -/
def startOf (s : Store) (path : Path) : Place :=
  match path.anchor with
  | .current => s.current
  | _ => []

/-- The place that a path leads to. -/
def locate (s : Store) (path : Path) : Except FileFault Place :=
  if path.hasNull then .error .nullCharacter
  else if path.isLong then .error .tooLong
  else s.walk (s.startOf path) path.parts

/-- What a path leads to. -/
def lookup (s : Store) (path : Path) : Except FileFault Node := do
  let place ← s.locate path
  match s.node? place with
  | some node => .ok node
  | none => .error .missing

/-- Whether a path leads to a directory. -/
def isDir (s : Store) (path : Path) : Bool :=
  match s.lookup path with
  | .ok .dir => true
  | _ => false

/-- Whether a path leads to a file. -/
def isFile (s : Store) (path : Path) : Bool :=
  match s.lookup path with
  | .ok (.file _) => true
  | _ => false

/-- Refuses a path that is too long to be looked up. -/
def checkLength (s : Store) (path : Path) : Except FileError Unit :=
  match s.lookup path with
  | .error .tooLong => .error ⟨.tooLong, path⟩
  | _ => .ok ()

/-- The content of the file that a path leads to. -/
def read (s : Store) (path : Path) : Except FileError Content :=
  match s.lookup path with
  | .ok (.file content) => .ok content
  | .ok .dir => .error ⟨.isDirectory, path⟩
  | .error fault => .error ⟨fault, path⟩

/-- Writes a file whose directory is there. -/
def write (s : Store) (path : Path) (content : Content) : Except FileError Store :=
  match s.locate path with
  | .error fault => .error ⟨fault, path⟩
  | .ok place =>
      match s.node? place with
      | some .dir => .error ⟨.isDirectory, path⟩
      | _ => .ok (s.putNode place (.file content))

/-- Makes one directory where nothing is. -/
def makeDir (s : Store) (path : Path) : Except FileFault Store := do
  let place ← s.locate path
  match s.node? place with
  | some _ => .error .taken
  | none => .ok (s.putNode place .dir)

/-- Follows parts from a place and makes what is missing on the way; `before` are the parts that
lead to the place.  What was made stays when a later part fails. -/
def makeBelow (s : Store) (anchor : Path.Anchor) (before : List String) (place : Place) :
    List String → Store × Except FileError Unit
  | [] => (s, .ok ())
  | part :: rest =>
      let reached := before ++ [part]
      match s.follow place part with
      | .error fault => (s, .error ⟨fault, ⟨anchor, reached⟩⟩)
      | .ok next =>
          match s.node? next with
          | none =>
              let made := if part = ".." then s else s.putNode next .dir
              made.makeBelow anchor reached next rest
          | some .dir => s.makeBelow anchor reached next rest
          | some (.file _) => (s, .error ⟨.taken, ⟨anchor, reached⟩⟩)

/-- Makes a directory and those above it that are missing. -/
def makeDirs (s : Store) (path : Path) : Store × Except FileError Unit :=
  match s.makeDir path with
  | .ok made => (made, .ok ())
  | .error .missing => s.makeBelow path.anchor [] (s.startOf path) path.parts
  | .error fault => (s, if s.isDir path then .ok () else .error ⟨fault, path⟩)

/-- Writes a file and makes the directories above it that are missing. -/
def writeDeep (s : Store) (path : Path) (content : Content) : Store × Except FileError Unit :=
  match s.makeDirs path.parent with
  | (made, .error e) => (made, .error e)
  | (made, .ok ()) =>
      match made.write path content with
      | .ok written => (written, .ok ())
      | .error e => (made, .error e)

/-- The tree that keeps only the places of a kind. -/
def keep (s : Store) (kind : Place → Bool) : Store :=
  { s with nodes := s.nodes.filter fun entry => kind entry.1.2 }

/-- The tree with nothing below a place. -/
def clearBelow (s : Store) (top : Place) : Store :=
  s.keep fun place => place = top || (Path.afterParts? top place).isNone

/-- Whether an empty directory can be removed by a path: the path leads there and ends with its
name. -/
def isRemovable (s : Store) (path : Path) : Bool :=
  match path.parts.getLast?, s.locate path with
  | some name, .ok _ => name ≠ ".."
  | _, _ => false

/-- Removes all that is below the directory at a path, and then the directory.  It stays when the
path does not name it any more; a path that leads to no directory is left alone. -/
def removeTree (s : Store) (path : Path) : Store :=
  match s.locate path with
  | .error _ => s
  | .ok top =>
      match s.node? top with
      | some .dir =>
          let cleared := s.clearBelow top
          if cleared.isRemovable path then cleared.keep (· ≠ top) else cleared
      | _ => s

/-- What is strictly below the directory at a path, by the parts that lead there from it. -/
def below (s : Store) (path : Path) : List (List String × Node) :=
  match s.locate path with
  | .error _ => []
  | .ok top =>
      s.nodes.filterMap fun ((_, place), node) =>
        match Path.afterParts? top place with
        | some (part :: rest) => some (part :: rest, node)
        | _ => none

/-- The place that a path names, whether there is anything or not. -/
def resolve (s : Store) (path : Path) : Place :=
  path.parts.foldl step (s.startOf path)

/-- A place is found by its key. -/
theorem keyOf_inj
    {place other : Place} :
    keyOf place = keyOf other ↔ place = other :=
  ⟨congrArg Prod.snd, congrArg keyOf⟩

/-- What is set at a place is found there; the root is always a directory. -/
theorem node?_putNode_self
    (s : Store) {place : Place} (node : Node)
    (h : place ≠ []) :
    (s.putNode place node).node? place = some node := by
  simp [node?, putNode, h, Dictionary.get?_put_self]

/-- Setting the node at a place changes no other place. -/
theorem node?_putNode_of_ne
    (s : Store) {place other : Place} (node : Node)
    (h : other ≠ place) :
    (s.putNode place node).node? other = s.node? other := by
  have hkey : keyOf other ≠ keyOf place := fun e => h (keyOf_inj.1 e)
  simp [node?, putNode, Dictionary.get?_put_of_ne _ _ hkey]

theorem node?_keep
    (s : Store) {kind : Place → Bool} {place : Place}
    (h : kind place = true) :
    (s.keep kind).node? place = s.node? place := by
  simp only [node?, keep, Dictionary.get?, List.find?_filter]
  split
  · rfl
  · congr 2
    funext entry
    by_cases hkey : entry.1 = keyOf place
    · simp [hkey, keyOf, h]
    · simp [hkey]

end Store

end Facade
