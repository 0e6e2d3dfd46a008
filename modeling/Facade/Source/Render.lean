import Facade.Source.Namer

/-!
# The text of a file

**Input.**  A file, and the names of its types.

**Algorithm.**  Every member is a list of lines; a snippet of several lines counts as one line until
it is indented or written.  Members of a type are separated by empty lines and indented by one step.
The package comes first, then the imports: those that the names of the types need, and all aliases
of the file.  The text has no blanks at the end of its lines and ends with a line end.
-/

namespace Facade
namespace Source

open Code Text

/-- Modifiers, each followed by a space. -/
def modifiersText (modifiers : List String) : String :=
  "".intercalate (modifiers.map (· ++ " "))

/-- A documentation comment. -/
def docLines (doc : List String) : List String :=
  if doc.isEmpty then []
  else "/**" :: (doc.map (fun line => if line.isEmpty then " *" else " * " ++ line) ++ [" */"])

/-- One line per annotation. -/
def annotationLines (n : Namer) (annotations : List Shape) : List String :=
  annotations.map fun a => "@" ++ n.name a

/-- A parameter. -/
def ParameterDef.render (n : Namer) (p : ParameterDef) : String :=
  modifiersText p.modifiers ++ p.name ++ ": " ++ n.name p.type

/-- Parameters between parentheses. -/
def parametersText (n : Namer) (params : List ParameterDef) : String :=
  "(" ++ ", ".intercalate (params.map (ParameterDef.render n)) ++ ")"

/-- The lines of a setter. -/
def setterLines (setter : Option (List Stmt)) : List String :=
  match setter with
  | none => []
  | some statements =>
      (indentation ++ "set(value) \x7b") ::
        (statements.map (fun s => indentBy (indentation ++ indentation) s.source) ++
          [indentation ++ "\x7d"])

/-- The lines of a property. -/
def PropertyDef.render (n : Namer) (p : PropertyDef) : List String :=
  let keyword := if p.isMutable then "var " else "val "
  let head := modifiersText p.modifiers ++ keyword ++ p.name ++ ": " ++ n.name p.type
  annotationLines n p.annotations ++
    match p.initializer with
    | some value => [head ++ " = " ++ value.source]
    | none =>
        head :: (p.getter.toList.map (fun value => indent ("get() = " ++ value.source)) ++
          setterLines p.setter)

/-- The lines of a function. -/
def FunctionDef.render (n : Namer) (f : FunctionDef) : List String :=
  let receiver := match f.receiver with
    | some type => n.name type ++ "."
    | none => ""
  let result := match f.result with
    | some type => ": " ++ n.name type
    | none => ""
  let head :=
    modifiersText f.modifiers ++ "fun " ++ receiver ++ f.name ++ parametersText n f.params ++ result
  annotationLines n f.annotations ++
    match f.expression, f.body with
    | some value, _ => [head ++ " = " ++ value.source]
    | none, some statements =>
        (head ++ " \x7b") :: (statements.map (fun s => indent s.source) ++ ["\x7d"])
    | none, none => [head]

/-- The line of a constructor. -/
def ConstructorDef.render (n : Namer) (c : ConstructorDef) : String :=
  let delegate := match c.delegate with
    | some value => " : " ++ value.source
    | none => ""
  modifiersText c.modifiers ++ "constructor" ++ parametersText n c.params ++ delegate

/-- Lines with a comma after each but the last. -/
def commaLines : List String → List String
  | [] => []
  | [line] => [line]
  | line :: next :: rest => (line ++ ",") :: commaLines (next :: rest)

/-- The head of a type with its primary constructor, up to the point where the supertypes follow. -/
def headLines (n : Namer) (head : String) (primary : Option ConstructorDef) :
    List String × String :=
  match primary with
  | none => ([], head)
  | some c =>
      if c.params.isEmpty && c.modifiers.isEmpty then ([], head)
      else
        let opened :=
          if c.modifiers.isEmpty then head ++ "("
          else head ++ " " ++ " ".intercalate c.modifiers ++ " constructor("
        if c.params.isEmpty then ([], opened ++ ")")
        else
          (opened :: commaLines (c.params.map fun p => indentation ++ ParameterDef.render n p), ")")

/-- The supertypes after the head of a type; a class is extended through its empty constructor. -/
def supersText (n : Namer) (t : TypeDef) : String :=
  let supers := t.superclass.toList.map (fun s => n.name s ++ "()") ++ t.interfaces.map n.name
  if supers.isEmpty then "" else " : " ++ ", ".intercalate supers

/-- Blocks of lines with an empty line between them. -/
def separated : List (List String) → List String
  | [] => []
  | [block] => block
  | block :: next :: rest => block ++ "" :: separated (next :: rest)

/-- The members of a type, each as a block of lines. -/
def TypeDef.blocks (n : Namer) (t : TypeDef) : List (List String) :=
  t.properties.map (PropertyDef.render n) ++
    t.constructors.map (fun c => [ConstructorDef.render n c]) ++
    t.functions.map (FunctionDef.render n)

/-- The lines of a type. -/
def TypeDef.render (n : Namer) (t : TypeDef) : List String :=
  let blocks := t.blocks n
  let (opening, last) :=
    headLines n (modifiersText t.modifiers ++ t.kind.keyword ++ " " ++ t.name) t.primary
  let head := last ++ supersText n t
  docLines t.doc ++ annotationLines n t.annotations ++ opening ++
    if blocks.isEmpty then [head]
    else (head ++ " \x7b") :: (separated (blocks.map (List.map indent)) ++ ["\x7d"])

/-- The lines of a member of a file. -/
def MemberDef.render (n : Namer) : MemberDef → List String
  | .type t => t.render n
  | .function f => f.render n
  | .property p => p.render n

/-- Whether one entry of a dictionary of texts comes before another. -/
def entryLe (a b : String × String) : Bool :=
  a.1 < b.1 || (a.1 == b.1 && a.2 ≤ b.2)

/-- An import. -/
structure Import where
  /-- The dotted name of what is imported. -/
  qualified : String
  /-- The name that it gets in the file, if it does not keep its own. -/
  short? : Option String := none
deriving DecidableEq, Repr

/-- The line of an import. -/
def Import.line (i : Import) : String :=
  match i.short? with
  | none => "import " ++ i.qualified
  | some name => "import " ++ i.qualified ++ " as " ++ name

/-- The imports of a file, the aliases last. -/
def Namer.importsOf (n : Namer) (f : File) : List Import :=
  n.sortedImports.map (fun qualified => { qualified := qualified }) ++
    (f.aliases.mergeSort entryLe).map fun (qualified, name) => { qualified, short? := some name }

/-- Lines followed by an empty line, nothing for no lines. -/
def paragraph (ls : List String) : List String :=
  if ls.isEmpty then [] else ls ++ [""]

/-- The line of the package, unless it is the root. -/
def File.packageLines (f : File) : List String :=
  if f.package.isEmpty then [] else ["package " ++ f.package]

/-- The lines of the members. -/
def File.memberLines (n : Namer) (f : File) : List String :=
  separated (f.members.map (MemberDef.render n))

/-- Lines as a text without blanks at the end of a line. -/
def tidied (ls : List String) : String :=
  unlines ((lines (unlines ls)).map trimEnd) ++ "\n"

/-- The text of a file with the names that a namer gives to its types. -/
def File.renderBy (n : Namer) (f : File) : String :=
  tidied
    (paragraph f.packageLines ++ paragraph ((n.importsOf f).map Import.line) ++ f.memberLines n)

/-- The text of a file. -/
def File.render (f : File) : String :=
  f.renderBy (Namer.ofFile f)

/-- The text of a file, unless the number of a function type that it refers to cannot be read. -/
def File.text (f : File) : Except Overlong String :=
  match Shape.checkNumbers f.references with
  | .error o => .error o
  | .ok () => .ok f.render

end Source
end Facade
