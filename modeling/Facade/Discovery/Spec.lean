import Facade.Shape.Reference

/-!
# Instantiations asked for by text

A text `Name=pkg.Class<Arg, ...>` asks for the wrapper of one instantiation of a generic class under
a name of its own.
-/

namespace Facade

/-- An instantiation to export. -/
structure InstanceSpec where
  name : String
  className : String
  args : List Shape
deriving DecidableEq, Repr

namespace InstanceSpec

/-- Why a text asks for no instantiation. -/
inductive Error where
  /-- There is no equals sign, or no identifier before it. -/
  | malformed (text : String)
  /-- There is nothing after an opening bracket, or no bracket. -/
  | noArguments (text : String)
  /-- The type arguments are no type references. -/
  | reference (cause : Reference.Error)
deriving DecidableEq, Repr

/-- What is said about a text that asks for no instantiation. -/
def Error.message : Error → String
  | .malformed text => "Expected 'Name=pkg.Class<Arg, ...>', got " ++ Text.quoted text
  | .noArguments text => "No type arguments given in " ++ Text.quoted text
  | .reference e => e.message

/-- The instantiation that a text asks for; the type arguments are read as those of a type
`Generic`. -/
def parse (text : String) : Except Error InstanceSpec := do
  let (name, target) ←
    match Text.cutFirst? '=' text.toList with
    | none => throw (.malformed text)
    | some (before, after) => pure (Text.strip (String.ofList before), Text.stripChars after)
  if Text.isIdentifier name = false then throw (.malformed text)
  match Text.cutFirst? '<' target with
  | none => throw (.noArguments text)
  | some (_, []) => throw (.noArguments text)
  | some (before, args) =>
      let shape ← (Shape.parse ("Generic<" ++ String.ofList args)).mapError .reference
      return ⟨name, Text.strip (String.ofList before), shape.args⟩

end InstanceSpec

end Facade
