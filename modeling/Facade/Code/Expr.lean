import Facade.Name

/-!
# Generated code

**Input.**  Conversions and wrappers build expressions and statements as terms of a small language:
names, member access with and without a null check, calls, casts, lambdas and a few forms that only
wrappers use.

**Algorithm.**  `Expr.source` and `Stmt.source` print a term; nothing else in the library writes
generated code.  A lambda with named parameters is printed over several lines and its body is
indented by one step; a block on the implicit parameter `it` is printed on one line.

**Results.**
* `Expr.sources_eq_map`: the list companion of the printer is a map.
-/

namespace Facade
namespace Code

/-- A parameter of a lambda, with its type when it is written. -/
structure Binder where
  name : String
  type : Option Shape := none

/-- How a parameter of a lambda is written. -/
def Binder.source (b : Binder) : String :=
  match b.type with
  | none => b.name
  | some type => b.name ++ ": " ++ type.source

/-- Expressions of generated code. -/
inductive Expr where
  /-- Source text that is taken as it stands. -/
  | text (source : String)
  /-- A variable, a function or a type, by name. -/
  | name (ident : String)
  /-- A member of a value, after a null check when `safe` is set. -/
  | member (target : Expr) (safe : Bool) (field : String)
  /-- A call. -/
  | call (function : Expr) (args : List Expr)
  /-- An argument passed by name. -/
  | named (label : String) (value : Expr)
  /-- A cast to the type of a key. -/
  | cast (value : Expr) (type : Key) (nullable : Bool)
  /-- A call whose only argument is a block after the function. -/
  | trailing (function block : Expr)
  /-- A block on the implicit parameter `it`. -/
  | implicit (body : Expr)
  /-- A lambda with its own parameters. -/
  | lambda (params : List Binder) (body : Expr)
  /-- A generic type, by name and type arguments. -/
  | typed (ident : String) (args : List Shape)
  /-- A cast that gives null when it fails. -/
  | safeCast (value : Expr) (type : String)
  /-- The first value unless it is null, else the second. -/
  | orElse (value other : Expr)
  /-- A choice by the type of `this`, each branch calling a function without arguments; `unknown`
  names the hierarchy in the failure of the last branch. -/
  | dispatch (branches : List (Shape × String)) (unknown : String)

/-- Statements of generated code. -/
inductive Stmt where
  /-- Source text that is taken as it stands. -/
  | text (source : String)
  /-- An expression evaluated for its effect. -/
  | eval (value : Expr)
  /-- An assignment. -/
  | assign (target value : Expr)
  /-- A local value. -/
  | bind (name : String) (value : Expr)
  /-- The result of the function. -/
  | ret (value : Expr)
  /-- Returns `entry` if its name is the value of the parameter `argument`. -/
  | retIfNamed (argument : String) (entry : Expr)

namespace Expr

/-- The instance a member belongs to. -/
def self : Expr := .name "this"

/-- The implicit parameter of a block. -/
def it : Expr := .name "it"

/-- The method of a value, called without arguments. -/
def send (target : Expr) (safe : Bool) (method : String) : Expr :=
  .call (.member target safe method) []

/-- The elements of a collection, each converted by `body`, which refers to the element as `it`. -/
def mapped (target : Expr) (safe : Bool) (body : Expr) : Expr :=
  .trailing (.member target safe "map") (.implicit body)

/-- The name of the type in a cast: types of the package `kotlin` go by their simple name. -/
def castName (k : Key) : String :=
  if k.package = "kotlin" then k.name else k.qualified

/-- One line per branch, between the lines that open and close the choice. -/
def dispatchLines (branches : List (Shape × String)) (unknown : String) : List String :=
  let branch := fun (type, function) =>
    Text.indentation ++ "is " ++ Shape.source type ++ " -> " ++ function ++ "()"
  let failure :=
    Text.indentation ++ "else -> error(\"Unknown " ++ unknown ++ " subclass $\x7bthis::class\x7d\")"
  "when (this) \x7b" :: (branches.map branch ++ [failure, "\x7d"])

/-- How a lambda is written over the text of its body. -/
def lambdaSource (params : List Binder) (body : String) : String :=
  let head :=
    if params.isEmpty then "\x7b ->"
    else "\x7b " ++ ", ".intercalate (params.map Binder.source) ++ " ->"
  head ++ "\n" ++ Text.indentation ++ Text.hang body ++ "\n\x7d"

mutual

/-- The printed form of an expression. -/
def source : Expr → String
  | .text s => s
  | .name ident => ident
  | .member target safe field => target.source ++ (if safe then "?." else ".") ++ field
  | .call function args => function.source ++ "(" ++ ", ".intercalate (sources args) ++ ")"
  | .named label value => label ++ " = " ++ value.source
  | .cast value type nullable => value.source ++ " as " ++ castName type ++ Shape.mark nullable
  | .trailing function block => function.source ++ " " ++ block.source
  | .implicit body => "\x7b " ++ body.source ++ " \x7d"
  | .lambda params body => lambdaSource params body.source
  | .typed ident args => ident ++ Shape.bracketed (Shape.sources args)
  | .safeCast value type => "(" ++ value.source ++ " as? " ++ type ++ ")"
  | .orElse value other => value.source ++ " ?: " ++ other.source
  | .dispatch branches unknown => Text.unlines (dispatchLines branches unknown)

/-- The printed forms of a list of expressions. -/
def sources : List Expr → List String
  | [] => []
  | e :: rest => e.source :: sources rest

end

theorem sources_eq_map (es : List Expr) :
    sources es = es.map source := by
  induction es with
  | nil => rfl
  | cons e rest ih => simp [sources, ih]

end Expr

/-- The printed form of a statement. -/
def Stmt.source : Stmt → String
  | .text s => s
  | .eval value => value.source
  | .assign target value => target.source ++ " = " ++ value.source
  | .bind name value => "val " ++ name ++ " = " ++ value.source
  | .ret value => "return " ++ value.source
  | .retIfNamed argument entry =>
      "if (" ++ argument ++ " == " ++ entry.source ++ ".name) return " ++ entry.source

end Code
end Facade
