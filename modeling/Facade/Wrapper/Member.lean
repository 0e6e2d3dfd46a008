import Facade.Wrapper.Context
import Facade.Source.Tree

/-!
# Members of wrappers

**Input.**  A member of a native declaration and the name of the property that holds the wrapped
value, the delegate.

**Algorithm.**  A wrapped member forwards to the delegate.  Seen from the side `exporting`, the
member has shown types and the delegate is native; seen from the side `importing`, the member has
native types and the delegate is a wrapper.  Values that go to the delegate are converted against
the side, values that come from it along the side.
-/

namespace Facade
namespace Wrapper

open Code Mapping Source

/-- The type of a member as it is seen from a side. -/
def Context.visible (ctx : Context) (side : Direction) (member : String) (s : Shape) :
    Except Failure Shape :=
  match side with
  | .exporting => ctx.shown member s
  | .importing => .ok s

/-- The property of a delegate or its method, by name. -/
def ofDelegate (delegate member : String) : Expr :=
  .member (.name delegate) false (Name.safe member)

/-- A property that forwards to the delegate. -/
def wrapProperty
    (ctx : Context) (side : Direction) (delegate : String) (modifiers : List String)
    (p : Property) : Except Failure PropertyDef := do
  let target := ofDelegate delegate p.name
  let setter ←
    if p.isMutable then do
      let value ← ctx.convertIn p.name side.flip (.name "value") p.type
      pure (some [Stmt.assign target value])
    else pure none
  let type ← ctx.visible side p.name p.type
  let getter ← ctx.convertIn p.name side target p.type
  .ok { name := Name.safe p.name, type, modifiers, isMutable := p.isMutable, getter := some getter,
        setter }

/-- A parameter of a wrapped function. -/
def wrapParameter (ctx : Context) (side : Direction) (function : String) (p : Parameter) :
    Except Failure ParameterDef := do
  let type ← ctx.visible side function p.type
  .ok { name := Name.safe p.name, type }

/-- An argument that is passed on to the delegate. -/
def passArgument (ctx : Context) (side : Direction) (function : String) (p : Parameter) :
    Except Failure Expr := do
  let name := Name.safe p.name
  let value ← ctx.convertIn function side.flip (.name name) p.type
  .ok (.named name value)

/-- The local that holds the result of a wrapped function. -/
def resultName (params : List Parameter) : String :=
  Name.fresh "result" (params.map Parameter.name)

/-- Whether a type is the unit type, whatever its arguments and nullability. -/
def isUnit (s : Shape) : Bool :=
  s.key = Shape.unit.key

/-- A function that converts its arguments, calls the delegate and converts the result. -/
def wrapFunction
    (ctx : Context) (side : Direction) (delegate : String) (modifiers : List String)
    (f : Function) : Except Failure FunctionDef := do
  let params ← f.params.mapM (wrapParameter ctx side f.name)
  let args ← f.params.mapM (passArgument ctx side f.name)
  let call := Expr.call (ofDelegate delegate f.name) args
  if isUnit f.result then
    .ok { name := Name.safe f.name, params, modifiers, body := some [.eval call] }
  else do
    let result := resultName f.params
    let converted ← ctx.convertIn f.name side (.name result) f.result
    let type ← ctx.visible side f.name f.result
    let body :=
      if converted.source = result then [Stmt.ret call]
      else [Stmt.bind result call, Stmt.ret converted]
    .ok { name := Name.safe f.name, params, result := some type, modifiers, body := some body }

/-- A property without accessors. -/
def abstractProperty (ctx : Context) (modifiers : List String) (p : Property) :
    Except Failure PropertyDef := do
  let type ← ctx.shown p.name p.type
  .ok { name := Name.safe p.name, type, modifiers, isMutable := p.isMutable }

/-- A function without body. -/
def abstractFunction (ctx : Context) (modifiers : List String) (f : Function) :
    Except Failure FunctionDef := do
  let params ← f.params.mapM (wrapParameter ctx .exporting f.name)
  let result ←
    if isUnit f.result then pure none else (ctx.shown f.name f.result).map some
  .ok { name := Name.safe f.name, params, result, modifiers }

/-- A member that overrides one of a supertype says so; all others are public. -/
def visibility (isOverride hasSupers : Bool) : List String :=
  if isOverride && hasSupers then ["override"] else ["public"]

/-- The function that turns a wrapper into its native value. -/
def importFunction (exportName : String) (wrapper native : Shape) (value : Expr) : FunctionDef :=
  { name := Name.importer exportName, receiver := some wrapper, result := some native,
    modifiers := ["public"], expression := some value }

/-- The function that turns a native value into its wrapper. -/
def exportFunction (exportName : String) (wrapper native : Shape) (value : Expr) : FunctionDef :=
  { name := Name.exporter exportName, receiver := some native, result := some wrapper,
    modifiers := ["public"], expression := some value }

/-- The names that a delegate must not shadow: members and parameters of functions. -/
def wrappedNames (t : Template) : List String :=
  t.properties.map Property.name ++ t.functions.map Function.name ++
    t.functions.flatMap fun f => f.params.map Parameter.name

/-- The constructor through which a wrapper gets its delegate. -/
def holding (delegate : String) (type : Shape) (own shared : List String) : ConstructorDef :=
  { params := [{ name := delegate, type, modifiers := own }], modifiers := shared }

/-- The file of a wrapper, which imports the native declaration under its alias. -/
def fileOf (package name : String) (native : Shape) (simpleName : String)
    (members : List MemberDef) : File :=
  { package, name, aliases := [(native.qualified, Name.nativeAlias simpleName)], members }

end Wrapper
end Facade
