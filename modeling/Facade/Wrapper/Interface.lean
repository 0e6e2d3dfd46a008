import Facade.Wrapper.Class

/-!
# Wrappers of interfaces

**Input.**  An interface and the context of its session.

**Algorithm.**  The shown interface comes with two adapters: one implements the shown interface over
a native value, the other implements the native interface over a value written in JavaScript.
Converting an adapter takes its value out instead of putting another adapter around it.
-/

namespace Facade
namespace Wrapper

open Code Mapping Source

/-- The adapter around native values. -/
def exportedAdapter (exportName : String) : String :=
  "Exported" ++ exportName

/-- The adapter around values written in JavaScript. -/
def importedAdapter (exportName : String) : String :=
  "Imported" ++ exportName

/-- The value inside the adapter `own` if `this` is one, else `this` inside the adapter `other`. -/
def adapt (own field other : String) : Expr :=
  .orElse (.member (.safeCast .self own) true field) (.call (.name other) [.self])

/-- The shown interface. -/
def shownInterface (ctx : Context) (i : InterfaceDecl) : Except Failure TypeDef := do
  let hasSupers := !i.supers.isEmpty
  let interfaces ← i.supers.mapM fun s => ctx.shown s.type.name s.type
  let properties ← i.properties.mapM fun p =>
    abstractProperty ctx (visibility p.isOverride hasSupers) p
  let functions ← i.functions.mapM fun f =>
    abstractFunction ctx (visibility f.isOverride hasSupers) f
  .ok { kind := .interface, name := i.exportedName, modifiers := ["public"],
        annotations := [.jsExport], interfaces, properties, functions }

/-- An adapter: a private class that implements `implemented` over the value `delegate`. -/
def adapter
    (ctx : Context) (side : Direction) (name delegate : String) (held implemented : Shape)
    (i : InterfaceDecl) : Except Failure TypeDef := do
  let properties ← i.properties.mapM (wrapProperty ctx side delegate ["override"])
  let functions ← i.functions.mapM (wrapFunction ctx side delegate ["override"])
  .ok { kind := .cls, name, modifiers := ["private"],
        primary := some (holding delegate held ["val"] []), interfaces := [implemented],
        properties, functions }

/-- The file of the wrapper of an interface. -/
def ofInterface (ctx : Context) (i : InterfaceDecl) : Except Failure File := do
  checkClosed i.toTemplate
  let package := ctx.facadePackage i.package
  let exportName := i.exportedName
  let native := i.native
  let wrapper : Shape := { name := exportName, package }
  let taken := wrappedNames i.toTemplate
  let common := Name.fresh "common" taken
  let exported := Name.fresh "exported" taken
  let outward := exportedAdapter exportName
  let inward := importedAdapter exportName
  let shown ← shownInterface ctx i
  let outwardType ← adapter ctx .exporting outward common native wrapper i
  let inwardType ← adapter ctx .importing inward exported wrapper native i
  .ok (fileOf package exportName native i.simpleName
    [.type shown, .type outwardType, .type inwardType,
      .function (importFunction exportName wrapper native (adapt outward common inward)),
      .function (exportFunction exportName wrapper native (adapt inward exported outward))])

end Wrapper
end Facade
