import Facade.Shape.Builtin

/-!
# Mapping rules

A mapping rule says how values of a type are shown to JavaScript and converted in both directions.
Its scope is either the key of one type or a pattern on shapes; its conversion is one of a fixed
number of kinds, or a pair of templates.
-/

namespace Facade
namespace Mapping

/-- A condition on shapes. -/
inductive Pattern where
  /-- Every shape. -/
  | always
  /-- Function types. -/
  | function
  /-- Shapes with the given simple name. -/
  | named (name : String)
  /-- Shapes of the given package. -/
  | inPackage (package : String)
  /-- Shapes with the given nullability. -/
  | nullable (value : Bool)
  /-- Shapes with the given number of type arguments. -/
  | arity (count : Int)
  /-- References to one instantiation of a generic type. -/
  | instantiation (key : Key) (args : List Shape)
  /-- Shapes that pass a test. -/
  | satisfying (test : Shape → Bool)

/-- Whether a shape meets the condition; a function type is told by the number in its name. -/
def Pattern.holds : Pattern → Shape → Except Text.Overlong Bool
  | .always, _ => .ok true
  | .function, s => s.checkFunction
  | .named name, s => .ok (s.name == name)
  | .inPackage package, s => .ok (s.package == package)
  | .nullable value, s => .ok (s.nullable == value)
  | .arity count, s => .ok ((s.args.length : Int) == count)
  | .instantiation key args, s => .ok (s.key == key && s.args == args)
  | .satisfying test, s => .ok (test s)

/-- How values of a type are converted. -/
inductive Conversion where
  /-- Values are the same on both sides. -/
  | identity
  /-- Long integers are shown as doubles. -/
  | long
  /-- Arrays of long integers are shown as arrays of doubles. -/
  | longArray
  /-- Arrays are converted element by element. -/
  | array
  /-- Lists are shown as arrays and converted element by element. -/
  | list
  /-- Exceptions are shown as errors that keep the native exception as their cause. -/
  | exception (type : Key)
  /-- Functions are wrapped: arguments go the opposite way, results the same way. -/
  | function
  /-- Declarations of the session are shown as their wrapper. -/
  | wrapper (type : Key)
  /-- Every `%` of a template stands for the converted expression; without a target the type stays
  as it is. -/
  | template (target : Option Shape) (importing exporting : String)

/-- The types that a rule is for. -/
inductive Scope where
  /-- One type, whatever its arguments and its nullability. -/
  | key (type : Key)
  /-- All shapes that meet a condition. -/
  | pattern (condition : Pattern)

/-- A mapping rule. -/
structure Rule where
  scope : Scope
  description : String
  conversion : Conversion

/-- Why a rule is not accepted. -/
inductive RegistrationError where
  /-- The table is frozen. -/
  | frozen
  /-- A rule for the same key was accepted before. -/
  | duplicate (key : Key)
  /-- A rule was given with both a key and a pattern, or with neither. -/
  | scope
deriving DecidableEq, Repr

/-- What is said about a rule that is not accepted. -/
def RegistrationError.message : RegistrationError → String
  | .frozen => "The type mapping table is frozen, rules can no longer be registered"
  | .duplicate key => "A mapping rule is already registered for " ++ key.joined
  | .scope => "A mapping rule needs exactly one of 'key' or 'predicate'"

/-- The scope given by a key or a pattern. -/
def Scope.ofParts : Option Key → Option Pattern → Except RegistrationError Scope
  | some type, none => .ok (.key type)
  | none, some condition => .ok (.pattern condition)
  | _, _ => .error .scope

namespace Rule

/-- The key of a rule for one type. -/
def key? (r : Rule) : Option Key :=
  match r.scope with
  | .key type => some type
  | .pattern _ => none

/-- Whether the rule is for one type. -/
def isExact (r : Rule) : Bool :=
  r.key?.isSome

/-- Whether the pattern of the rule holds of a shape. -/
def holds (r : Rule) (s : Shape) : Except Text.Overlong Bool :=
  match r.scope with
  | .key _ => .ok false
  | .pattern condition => condition.holds s

/-- The rule for the type of a shape. -/
def exact (s : Shape) (conversion : Conversion) : Rule :=
  ⟨.key s.key, s.qualified, conversion⟩

/-- The rule for all shapes that meet a condition. -/
def patterned (pattern : Pattern) (description : String) (conversion : Conversion) : Rule :=
  ⟨.pattern pattern, description, conversion⟩

end Rule

end Mapping
end Facade
