import Facade.Mapping.Session
import Facade.Refusal

/-!
# What a wrapper knows of its session

A wrapper is built in the context of a session: its mapping table, whether packages are erased,
which sealed classes it exports and under which names its declarations are exported.
-/

namespace Facade
namespace Wrapper

open Mapping

/-- What is known of a session while a declaration is wrapped. -/
structure Context where
  table : Table
  erase : Bool := false
  /-- The sealed classes of the session, whose wrappers are abstract. -/
  sealedBases : List Key := []
  /-- The native package and the export name of every declaration of the session. -/
  exportedNames : List (String × String) := []

namespace Context

/-- The context of a session with the given declarations. -/
def ofSession
    (table : Table) (exported : List (Shape × String)) (sealedShapes : List Shape) (erase : Bool) :
    Context where
  table := table
  erase := erase
  sealedBases := sealedShapes.map Shape.key
  exportedNames := exported.map fun (native, name) => (native.package, name)

/-- What is said when a context is asked for before its table is frozen. -/
def unfrozenMessage : String :=
  "ExportContext needs a frozen type mapping table"

/-- The context of a session without declarations, once its table is frozen. -/
def ofRegistry (g : Registry) : Except String Context :=
  match g.frozen? with
  | some table => .ok { table }
  | none => .error unfrozenMessage

/-- The package of the wrappers of a package. -/
def facadePackage (ctx : Context) (package : String) : String :=
  Name.facadePackage package ctx.erase

/-- Whether a type is a sealed class of the session. -/
def isSealedBase (ctx : Context) (key : Key) : Bool :=
  key ∈ ctx.sealedBases

/-- Whether a declaration of the session is generated under `name` next to those of `package`. -/
def declares (ctx : Context) (package name : String) : Bool :=
  ctx.exportedNames.any fun (p, n) => n = name && ctx.facadePackage p = ctx.facadePackage package

/-- The shape that a type of the given member is shown as. -/
def shown (ctx : Context) (member : String) (s : Shape) : Except Failure Shape :=
  (ctx.table.exported s).mapError fun fault => (Failure.ofFault fault).placed none (some member)

/-- The conversion of a value that concerns no member. -/
def convert (ctx : Context) (d : Direction) (e : Code.Expr) (s : Shape) :
    Except Failure Code.Expr :=
  (ctx.table.convert d e s).mapError Failure.ofFault

/-- The conversion of a value of the given member. -/
def convertIn (ctx : Context) (member : String) (d : Direction) (e : Code.Expr) (s : Shape) :
    Except Failure Code.Expr :=
  (ctx.table.convert d e s).mapError fun fault => (Failure.ofFault fault).placed none (some member)

end Context

end Wrapper
end Facade
