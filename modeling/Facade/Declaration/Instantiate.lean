import Facade.Shape.Substitution
import Facade.Refusal

/-!
# Instantiating generic declarations

**Input.**  A class or interface with type parameters, and type arguments for them.

**Algorithm.**  The parameters are bound to the arguments by position, and every type of the
declaration is substituted.  The copy has no type parameters, remembers its type arguments and has
an export name of its own.

**Results.**
* `Binding.ofArgs?_eq_error_iff`: binding fails exactly when the numbers differ.
-/

namespace Facade

/-- Type parameters bound to type arguments by position. -/
def Binding.ofArgs? (params : List String) (args : List Shape) : Except Refusal Binding :=
  if params.length = args.length then .ok (Dictionary.ofList (params.zip args))
  else .error { cause := .arity params args.length }

/-- The parameter with its type substituted. -/
def Parameter.substitute (b : Binding) (p : Parameter) : Parameter :=
  { p with type := p.type.substitute b }

/-- The property with its type substituted. -/
def Property.substitute (b : Binding) (p : Property) : Property :=
  { p with type := p.type.substitute b }

/-- The function with all its types substituted. -/
def Function.substitute (b : Binding) (f : Function) : Function :=
  { f with result := f.result.substitute b, params := f.params.map (Parameter.substitute b) }

/-- The supertype with all its types substituted. -/
def Supertype.substitute (b : Binding) (s : Supertype) : Supertype :=
  { s with
    type := s.type.substitute b
    arguments := s.arguments.map (List.map (Parameter.substitute b)) }

/-- The declaration with its type parameters bound. -/
def Template.instantiate
    (b : Binding) (args : List Shape) (exportName : Option String) (t : Template) : Template :=
  { t with
    typeParams := []
    typeArgs := args
    exportName
    supers := t.supers.map (Supertype.substitute b)
    properties := t.properties.map (Property.substitute b)
    functions := t.functions.map (Function.substitute b) }

namespace Declaration

/-- The instance of a class or interface for the given type arguments. -/
def instantiate
    (d : Declaration) (args : List Shape) (exportName : Option String) :
    Except Refusal Declaration :=
  match d with
  | cls c => do
      let b ← (Binding.ofArgs? c.typeParams args).mapError (·.placed c.origin none)
      .ok (cls
        { c.toTemplate.instantiate b args exportName with
          constructorParams := c.constructorParams.map (Parameter.substitute b) })
  | interface i => do
      let b ← (Binding.ofArgs? i.typeParams args).mapError (·.placed i.origin none)
      .ok (interface { i.toTemplate.instantiate b args exportName with })
  | _ => .error { cause := .notGeneric d.header.simpleName, location := d.origin }

end Declaration

/-- The only thing that can go wrong with arguments is their number. -/
theorem Binding.ofArgs?_eq_error_iff
    (params : List String) (args : List Shape) (r : Refusal) :
    Binding.ofArgs? params args = .error r ↔
      params.length ≠ args.length ∧ r = { cause := .arity params args.length } := by
  rw [Binding.ofArgs?]
  split
  · next h => simp [h]
  · next h => simp [h, eq_comm]

end Facade
