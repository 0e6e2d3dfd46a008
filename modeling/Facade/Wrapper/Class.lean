import Facade.Wrapper.Member
import Facade.Log

/-!
# Wrappers of classes

**Input.**  A class and the context of its session.

**Algorithm.**  The wrapper holds the native value and forwards every member to it.  Only wrappers
of sealed classes can be extended, so a class supertype has to be a sealed class of the session;
the wrapper extends it through its empty constructor.  The wrapper can be constructed from
JavaScript unless the arguments for the constructor of a supertype are only known when the program
runs.

**Results.**
* The first violated condition decides: type parameters, supertypes from left to right, constructor
  parameters, properties, functions.
-/

namespace Facade
namespace Wrapper

open Code Mapping Source

/-- The supertypes of a wrapper. -/
structure Ancestry where
  superclass : Option Shape := none
  interfaces : List Shape := []
  /-- Superclasses whose constructor arguments are only known when the program runs. -/
  unbuildable : List String := []

namespace Ancestry

/-- Adds a supertype. -/
def add (ctx : Context) (d : Template) (a : Ancestry) (s : Supertype) :
    Except Failure Ancestry := do
  let shape ← ctx.shown s.type.name s.type
  if !s.isClass then .ok { a with interfaces := a.interfaces ++ [shape] }
  else if !ctx.isSealedBase s.type.key then
    .error (.refused { cause := .unsealedBase d.simpleName s.type.key, location := d.origin })
  else
    .ok { a with
      superclass := some shape
      unbuildable :=
        if s.isReconstructable then a.unbuildable else a.unbuildable ++ [s.type.name] }

/-- The supertypes of the wrapper of a class. -/
def ofClass (ctx : Context) (d : Template) : Except Failure Ancestry :=
  d.supers.foldlM (add ctx d) {}

/-- The superclasses that keep the wrapper from having a constructor. -/
def unbuildableText (a : Ancestry) : String :=
  ", ".intercalate a.unbuildable

/-- What the wrapper says when it has no constructor. -/
def doc (a : Ancestry) (exportName : String) : List String :=
  if a.unbuildable.isEmpty then []
  else
    ["The constructor arguments given to " ++ a.unbuildableText ++
        " are only known at runtime, so this",
      "wrapper cannot be constructed from JS: use `" ++ Name.exporter exportName ++
        "()` on a native",
      "value. Inherited members implement the abstract members of the super wrapper."]

end Ancestry

/-- A declaration with open type parameters is refused. -/
def checkClosed (d : Template) : Except Failure Unit :=
  if d.typeParams.isEmpty then .ok ()
  else
    .error (.refused { cause := .openGenerics d.simpleName d.typeParams, location := d.origin })

/-- The supertypes of a class without open type parameters. -/
def checkedAncestry (ctx : Context) (d : Template) : Except Failure Ancestry := do
  checkClosed d
  Ancestry.ofClass ctx d

/-- The constructor that JavaScript calls. -/
def publicConstructor (ctx : Context) (c : ClassDecl) : Except Failure ConstructorDef := do
  let params ← c.constructorParams.mapM fun p => do
    let type ← ctx.shown p.name p.type
    .ok ({ name := Name.safe p.name, type } : ParameterDef)
  let args ← c.constructorParams.mapM fun p => do
    let name := Name.safe p.name
    let value ← ctx.convert .importing (.name name) p.type
    .ok (Expr.named name value)
  (Shape.checkNumbers (Shape.partsAll c.typeArgs)).mapError .overlong
  let native := Expr.call (.typed (Name.nativeAlias c.simpleName) c.typeArgs) args
  .ok { params, modifiers := ["public"], delegate := some (.call .self [native]) }

/-- The file of the wrapper of a class. -/
def ofClass (ctx : Context) (c : ClassDecl) : Except Failure File := do
  let ancestry ← checkedAncestry ctx c.toTemplate
  let package := ctx.facadePackage c.package
  let exportName := c.exportedName
  let native := c.native
  let wrapper : Shape := { name := exportName, package }
  let delegate := Name.fresh "common" (wrappedNames c.toTemplate)
  let hasSupers := !c.supers.isEmpty
  let constructors ←
    if ancestry.unbuildable.isEmpty then do pure [← publicConstructor ctx c] else pure []
  let properties ← c.properties.mapM fun p =>
    wrapProperty ctx .exporting delegate (visibility p.isOverride hasSupers) p
  let functions ← c.functions.mapM fun f =>
    wrapFunction ctx .exporting delegate (visibility f.isOverride hasSupers) f
  let type : TypeDef :=
    { kind := .cls, name := exportName, modifiers := ["public"], annotations := [.jsExport],
      primary := some (holding delegate native ["internal", "val"] ["internal"]),
      superclass := ancestry.superclass, interfaces := ancestry.interfaces,
      properties, constructors, functions, doc := ancestry.doc exportName }
  .ok (fileOf package exportName native c.simpleName
    [.type type,
      .function (importFunction exportName wrapper native (.member .self false delegate)),
      .function (exportFunction exportName wrapper native (.call (.name exportName) [.self]))])

/-- What is logged about the wrapper of a class, whether or not its members can be wrapped. -/
def classNotes (ctx : Context) (c : ClassDecl) : List Log.Line :=
  match checkedAncestry ctx c.toTemplate with
  | .error _ => []
  | .ok ancestry =>
      if ancestry.unbuildable.isEmpty then []
      else
        [Log.debug (c.simpleName ++ ": constructor arguments of " ++ ancestry.unbuildableText ++
          " are not known statically, the wrapper exposes no constructor")]

end Wrapper
end Facade
