import Facade.Wrapper.Member

/-!
# Wrappers of sealed classes

**Input.**  The root of a sealed hierarchy and the context of its session.

**Algorithm.**  The wrapper is abstract with an empty constructor, because what the subclasses
hand to the native constructor is only known when the program runs.  Subclasses are wrapped by
declarations of their own; a value of the hierarchy is converted by the function of the subclass
it is an instance of.
-/

namespace Facade
namespace Wrapper

open Code Source

/-- The modifiers of the wrapper and of its members. -/
def abstractModifiers : List String := ["public", "abstract"]

/-- The abstract wrapper. -/
def sealedType (ctx : Context) (d : SealedDecl) : Except Failure TypeDef := do
  let properties ← d.properties.mapM (abstractProperty ctx abstractModifiers)
  let functions ← d.functions.mapM (abstractFunction ctx abstractModifiers)
  .ok { kind := .cls, name := d.simpleName, modifiers := abstractModifiers,
        annotations := [.jsExport], properties, functions }

/-- The choice that turns a wrapper into a native value. -/
def importDispatch (ctx : Context) (d : SealedDecl) : Expr :=
  let branch := fun (s : Subclass) =>
    (({ name := s.simpleName, package := ctx.facadePackage s.package } : Shape),
      Name.importer s.simpleName)
  .dispatch (d.subclasses.map branch) d.simpleName

/-- The choice that turns a native value into a wrapper. -/
def exportDispatch (d : SealedDecl) : Expr :=
  .dispatch (d.subclasses.map fun s => (s.shape, Name.exporter s.simpleName)) d.simpleName

/-- The file of the wrapper of a sealed class. -/
def ofSealed (ctx : Context) (d : SealedDecl) : Except Failure File := do
  let package := ctx.facadePackage d.package
  let name := d.simpleName
  let native := d.toHeader.shape
  let wrapper : Shape := { name, package }
  let base ← sealedType ctx d
  (Shape.checkNumbers (d.subclasses.map Subclass.shape)).mapError .overlong
  .ok (fileOf package name native name
    [.type base,
      .function (importFunction name wrapper native (importDispatch ctx d)),
      .function (exportFunction name wrapper native (exportDispatch d))])

end Wrapper
end Facade
