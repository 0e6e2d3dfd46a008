import Facade.Source.Tree

/-!
# Names of types in a file

**Input.**  A file.

**Algorithm.**  Simple names are reserved by the aliases of the file, then by the types it declares,
then by the types it refers to, in the order of their keys.  A type that reserves its simple name is
written by it, and is imported unless it is of the package of the file or of a package that needs no
import.  A type whose simple name belongs to another type is written by its dotted name.

**Results.**
* `Namer.nameAll_eq_map`: the list companion of `Namer.name` is a map.
-/

namespace Facade
namespace Source

/-- How the types of a file are written. -/
structure Namer where
  /-- Dotted names that are written by an alias. -/
  aliases : Dictionary String String
  /-- Owners of the simple names, by dotted name. -/
  reserved : Dictionary String String
  /-- Dotted names that are imported. -/
  imports : List String := []
  /-- The text of every dotted name that was met. -/
  names : Dictionary String String := []

namespace Namer

/-- The names reserved by the aliases and the types of a file. -/
def start (f : File) : Namer :=
  let byAlias := Dictionary.ofList (f.aliases.map fun (qualified, name) => (name, qualified))
  let reserved := f.types.foldl
    (fun d t => d.putNew t.name (Key.mk f.package t.name).qualified) byAlias
  { aliases := f.aliases, reserved }

/-- Lets a type reserve its simple name. -/
def reserve (package : String) (n : Namer) (key : Key) : Namer :=
  let qualified := key.qualified
  if n.aliases.has qualified then n
  else
    match n.reserved.get? key.name with
    | none =>
        let isForeign := key.package ≠ package ∧ key.package ∉ Shape.defaultImports
        { n with
          reserved := n.reserved.put key.name qualified
          imports :=
            if isForeign ∧ qualified ∉ n.imports then n.imports ++ [qualified] else n.imports
          names := n.names.put qualified key.name }
    | some owner =>
        let text := if owner = qualified then key.name else qualified
        { n with names := n.names.put qualified text }

/-- The keys of the types that a file refers to and that may need an import, in order. -/
def keys (f : File) : List Key :=
  let packaged := f.references.filter fun s => !s.package.isEmpty && !s.isFunction
  (packaged.map Shape.key).eraseDups.mergeSort Key.le

/-- The names of the types of a file. -/
def ofFile (f : File) : Namer :=
  (keys f).foldl (reserve f.package) (start f)

/-- The dotted names that are imported, in alphabetical order. -/
def sortedImports (n : Namer) : List String :=
  n.imports.mergeSort (· ≤ ·)

/-- The name of a type without its arguments. -/
def rawName (n : Namer) (key : Key) : String :=
  match n.aliases.get? key.qualified with
  | some name => name
  | none =>
      if key.package.isEmpty then key.name
      else (n.names.get? key.qualified).getD key.qualified

mutual

/-- The text of a type. -/
def name (n : Namer) : Shape → String
  | ⟨ident, package, args, nullable⟩ =>
      if Shape.isFunction ⟨ident, package, args, nullable⟩ then
        Shape.arrow (n.nameAll args) nullable
      else n.rawName ⟨package, ident⟩ ++ Shape.bracketed (n.nameAll args) ++ Shape.mark nullable

/-- The texts of a list of types. -/
def nameAll (n : Namer) : List Shape → List String
  | [] => []
  | s :: rest => n.name s :: n.nameAll rest

end

theorem nameAll_eq_map
    (n : Namer) (shapes : List Shape) :
    n.nameAll shapes = shapes.map n.name := by
  induction shapes with
  | nil => rfl
  | cons s rest ih => simp [nameAll, ih]

end Namer

end Source
end Facade
