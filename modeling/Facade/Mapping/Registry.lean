import Facade.Mapping.Convert
import Facade.Mapping.Session

/-!
# Looking up types in a registry

A registry can be asked only once it is frozen; every look-up before that is refused.
-/

namespace Facade
namespace Mapping

/-- Why a registry does not answer. -/
inductive QueryError where
  /-- The registry is not frozen yet. -/
  | unfrozen
  /-- The type cannot be converted. -/
  | fault (cause : Fault)
deriving DecidableEq, Repr

/-- What is said when a registry does not answer. -/
def QueryError.message : QueryError → String
  | .unfrozen => "The type mapping table must be frozen before it is queried"
  | .fault f => f.message

namespace Registry

/-- Asks the table of a frozen registry. -/
def query {α : Type} (g : Registry) (f : Table → Except Fault α) : Except QueryError α :=
  if g.frozen then (f g.table).mapError .fault else .error .unfrozen

/-- The rule that applies to a shape. -/
def find? (g : Registry) (s : Shape) : Except QueryError (Option Rule) :=
  g.query fun t => (t.find? s).mapError .overlong

/-- The shape that a type is shown as. -/
def exported (g : Registry) (s : Shape) : Except QueryError Shape :=
  g.query (·.exported s)

/-- Whether a type is shown as it is. -/
def isIdentity (g : Registry) (s : Shape) : Except QueryError Bool :=
  g.query (·.isIdentity s)

/-- The expression that converts `e`. -/
def convert (g : Registry) (d : Direction) (e : Code.Expr) (s : Shape) :
    Except QueryError Code.Expr :=
  g.query (·.convert d e s)

end Registry

end Mapping
end Facade
