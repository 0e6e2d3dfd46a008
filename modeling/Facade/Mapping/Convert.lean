import Facade.Mapping.Table
import Facade.Code.Expr
import Facade.Outcome
import Facade.Shape.Parts

/-!
# Shown types and conversion expressions

**Input.**  A table, a shape and, for conversions, an expression of that shape (exporting) or of the
shape it is shown as (importing).

**Algorithm.**  Both recursions follow the shape.  `exported` gives the shape that a type is shown
as; `convert` gives the expression that converts a value.  Arrays and lists convert their elements
through a block, functions become lambdas whose arguments are converted the opposite way.  A type
without a rule is left as it is, provided its type arguments need no conversion either.

**Results.**
* `exported_nullable`: the shown shape is nullable exactly when the shape is.
-/

namespace Facade
namespace Mapping

open Code

/-- The two ways of a conversion. -/
inductive Direction where
  /-- From the shown form to the native one. -/
  | importing
  /-- From the native form to the shown one. -/
  | exporting
deriving DecidableEq, Repr

/-- The opposite way. -/
def Direction.flip : Direction → Direction
  | .importing => .exporting
  | .exporting => .importing

/-- Why a type cannot be converted. -/
inductive Fault where
  /-- A collection without an element type. -/
  | noArguments (key : Key)
  /-- A type without a rule whose type arguments need a conversion. -/
  | unmappable (shape : Shape)
  /-- A function type whose number cannot be read. -/
  | overlong (cause : Text.Overlong)
deriving DecidableEq, Repr

/-- What is wrong with a type that has no rule. -/
def unmappableReason : String :=
  "no mapping is registered and its type arguments need a conversion"

/-- What is said about a type that cannot be shown. -/
def unmappableMessage (shape : Shape) (reason : String) : String :=
  "Cannot export type " ++ shape.text ++ (if reason.isEmpty then "" else ": " ++ reason)

/-- What is said about a type that cannot be converted. -/
def Fault.message : Fault → String
  | .noArguments key => key.qualified ++ " has no type arguments"
  | .unmappable shape => unmappableMessage shape unmappableReason
  | .overlong o => o.message

/-- The element type of a collection. -/
def firstArgument (s : Shape) : Except Fault Shape :=
  match s.args with
  | [] => .error (.noArguments s.key)
  | a :: _ => .ok a

namespace Direction

/-- A long integer or its double. -/
def long (d : Direction) (e : Expr) (nullable : Bool) : Expr :=
  match d with
  | .importing => e.send nullable "toLong"
  | .exporting => e.send nullable "toDouble"

/-- An array of long integers or of their doubles. -/
def longArray (d : Direction) (e : Expr) (nullable : Bool) : Expr :=
  let items := e.mapped nullable (d.long .it false)
  match d with
  | .importing => items.send nullable "toLongArray"
  | .exporting => items.send nullable "toTypedArray"

/-- An array whose elements are converted by `inner`; it stays as it is when they do. -/
def array (e : Expr) (nullable : Bool) (inner : Expr) : Expr :=
  if inner.source = "it" then e else (e.mapped nullable inner).send nullable "toTypedArray"

/-- A list or its array, whose elements are converted by `inner`. -/
def list (d : Direction) (e : Expr) (nullable : Bool) (inner : Expr) : Expr :=
  match d with
  | .importing =>
      if inner.source = "it" then e.send nullable "toList" else e.mapped nullable inner
  | .exporting =>
      if inner.source = "it" then e.send nullable "toTypedArray"
      else (e.mapped nullable inner).send nullable "toTypedArray"

/-- The error that has the given exception as its cause. -/
def errorOf (cause : Expr) : Expr :=
  .call (.name Shape.error.name) [.named "cause" cause]

/-- The exception of an error, or the error of an exception. -/
def exception (d : Direction) (e : Expr) (nullable : Bool) (type : Key) : Expr :=
  match d with
  | .importing => .cast (.member e nullable "cause") type nullable
  | .exporting =>
      if nullable then .trailing (.member e true "let") (.implicit (errorOf .it)) else errorOf e

/-- The native value of a wrapper, or the wrapper of a native value. -/
def wrapper (d : Direction) (e : Expr) (nullable : Bool) (type : Key) : Expr :=
  match d with
  | .importing => e.send nullable (Name.importer type.name)
  | .exporting => e.send nullable (Name.exporter type.name)

/-- A template applied to an expression. -/
def template (d : Direction) (e : Expr) (importing exporting : String) : Expr :=
  match d with
  | .importing => .text (Text.replaceChar '%' e.source importing)
  | .exporting => .text (Text.replaceChar '%' e.source exporting)

/-- The name of a function that was checked not to be null. -/
def checkedFunction : String := "fn"

/-- The expression that a lambda for the function `e` calls. -/
def callee (e : Expr) (nullable : Bool) : Expr :=
  if nullable then .name checkedFunction else e

/-- A lambda for the function `e`, which is checked for null when it may be. -/
def guarded (e : Expr) (nullable : Bool) (lambda : Expr) : Expr :=
  if nullable then .trailing (.member e true "let") (.lambda [⟨checkedFunction, none⟩] lambda)
  else lambda

end Direction

namespace Table

mutual

/-- The shape that a type is shown as. -/
def exported (t : Table) : Shape → Except Fault Shape
  | ⟨name, package, args, nullable⟩ =>
      let s : Shape := ⟨name, package, args, nullable⟩
      match t.conversion? s with
      | .error o => .error (.overlong o)
      | .ok none => do
          if (← t.exportedAll args) = args then .ok s else .error (.unmappable s)
      | .ok (some .identity) => .ok s
      | .ok (some .long) => .ok (Shape.double.withNullable nullable)
      | .ok (some .longArray) => .ok (Shape.arrayOf Shape.double nullable)
      | .ok (some .array) => do .ok (Shape.arrayOf (← t.exportedFirst s.key args) nullable)
      | .ok (some .list) => do .ok (Shape.arrayOf (← t.exportedFirst s.key args) nullable)
      | .ok (some (.exception _)) => .ok (Shape.error.withNullable nullable)
      | .ok (some .function) => do .ok (s.withArgs (← t.exportedAll args))
      | .ok (some (.wrapper type)) => .ok ((Shape.ofKey type).withNullable nullable)
      | .ok (some (.template target _ _)) => .ok ((target.getD s).withNullable nullable)

/-- The shapes that a list of types is shown as. -/
def exportedAll (t : Table) : List Shape → Except Fault (List Shape)
  | [] => .ok []
  | s :: rest => do
      let s' ← t.exported s
      let rest' ← t.exportedAll rest
      .ok (s' :: rest')

/-- The shape that the elements of a collection are shown as. -/
def exportedFirst (t : Table) (collection : Key) : List Shape → Except Fault Shape
  | [] => .error (.noArguments collection)
  | s :: _ => t.exported s

end

/-- Whether a type is shown as it is. -/
def isIdentity (t : Table) (s : Shape) : Except Fault Bool :=
  (t.exported s).map fun s' => s' == s

/-- The type of a parameter of a lambda, which is written out: an imported function takes native
values, an exported one takes shown values. -/
def parameterType (t : Table) (d : Direction) (param : Shape) : Except Fault Shape := do
  let type ← match d with
    | .importing => .ok param
    | .exporting => t.exported param
  (Shape.checkNumbers type.parts).mapError .overlong
  .ok type

mutual

/-- The expression that converts `e`. -/
def convert (t : Table) (d : Direction) (e : Expr) : Shape → Except Fault Expr
  | ⟨name, package, args, nullable⟩ =>
      let s : Shape := ⟨name, package, args, nullable⟩
      match t.conversion? s with
      | .error o => .error (.overlong o)
      | .ok none => (t.exported s).map fun _ => e
      | .ok (some .identity) => .ok e
      | .ok (some .long) => .ok (d.long e nullable)
      | .ok (some .longArray) => .ok (d.longArray e nullable)
      | .ok (some .array) => do .ok (Direction.array e nullable (← t.convertFirst d s.key args))
      | .ok (some .list) => do .ok (d.list e nullable (← t.convertFirst d s.key args))
      | .ok (some (.exception type)) => .ok (d.exception e nullable type)
      | .ok (some .function) => do
          let target := Direction.callee e nullable
          let names := Name.lambdaParameters (args.length - 1) target.source
          let body ← t.convertCall d target names [] args
          let types ← args.dropLast.mapM (t.parameterType d)
          let params := names.zipWith (fun n type => Binder.mk n (some type)) types
          .ok (Direction.guarded e nullable (.lambda params body))
      | .ok (some (.wrapper type)) => .ok (d.wrapper e nullable type)
      | .ok (some (.template _ importing exporting)) => .ok (d.template e importing exporting)

/-- The expression that converts the element `it` of a collection. -/
def convertFirst (t : Table) (d : Direction) (collection : Key) : List Shape → Except Fault Expr
  | [] => .error (.noArguments collection)
  | s :: _ => t.convert d .it s

/-- The call of `target` with converted arguments, whose result is converted.  The last shape is the
type of the result, the others are those of the parameters; `done` holds the arguments converted so
far. -/
def convertCall (t : Table) (d : Direction) (target : Expr) :
    (names : List String) → (done : List Expr) → List Shape → Except Fault Expr
  | _, done, [] => .ok (.call target done)
  | _, done, [result] => t.convert d (.call target done) result
  | names, done, param :: next :: rest => do
      let arg ← t.convert d.flip (.name (names.headD "")) param
      t.convertCall d target names.tail (done ++ [arg]) (next :: rest)

end

/-- The expression that turns the shown value `e` into a native value of the shape. -/
def importExpr (t : Table) (e : Expr) (s : Shape) : Except Fault Expr :=
  t.convert .importing e s

/-- The expression that turns the native value `e` of the shape into its shown value. -/
def exportExpr (t : Table) (e : Expr) (s : Shape) : Except Fault Expr :=
  t.convert .exporting e s

/-- The type that is shown for a type may be null exactly if the type may. -/
theorem exported_nullable
    {t : Table} {s s' : Shape}
    (h : t.exported s = .ok s') :
    s'.nullable = s.nullable := by
  obtain ⟨name, package, args, nullable⟩ := s
  rw [exported] at h
  split at h
  case h_1 => simp at h
  case h_2 =>
    obtain ⟨args', _, h⟩ := Outcome.bind_eq_ok_iff.1 h
    split at h
    · obtain rfl := by simpa using h
      rfl
    · simp at h
  case h_6 | h_7 | h_9 =>
    obtain ⟨_, _, h⟩ := Outcome.bind_eq_ok_iff.1 h
    obtain rfl := by simpa using h
    rfl
  all_goals
    obtain rfl := by simpa using h
    rfl

end Table

end Mapping
end Facade
