import Facade.Session.Request

/-!
# Sessions

**Input.**  A list of requests, the exceptions found besides the built-in ones, and whether packages
are erased.

**Algorithm.**  The table of the session is built from all requests first; then every request is
handled on its own.  The first request for a native type decides on the name of its wrapper.
-/

namespace Facade
namespace Session

open Mapping Wrapper

/-- Why a session cannot start. -/
inductive StartError where
  /-- Two rules of the session are for the same type. -/
  | registration (cause : RegistrationError)
  /-- A description is of a kind that has no native type. -/
  | noNativeType (kind : String)
deriving DecidableEq, Repr

/-- What is said when a session cannot start. -/
def StartError.message : StartError → String
  | .registration e => e.message
  | .noNativeType kind => "'types." ++ kind ++ "' object has no attribute 'native_shape'"

/-- The native type of a declaration and the name of its wrapper. -/
def nativeType : Declaration → Except StartError (Shape × String)
  | .cls d => .ok (d.native, d.exportedName)
  | .interface d => .ok (d.native, d.exportedName)
  | .sealed d => .ok (d.toHeader.shape, d.simpleName)
  | .enumeration d => .ok (d.toHeader.shape, d.simpleName)
  | .other kind _ => .error (.noNativeType kind)

/-- Adds the type that a request exports, unless it is there already. -/
def addExported (known : Dictionary Shape String) (r : Request) :
    Except StartError (Dictionary Shape String) :=
  match r with
  | .generics name d args _ => .ok (known.putNew (d.header.shape.withArgs args) name)
  | .declaration d _ =>
      if d.typeParams.isEmpty then do
        let (native, name) ← nativeType d
        .ok (known.putNew native name)
      else .ok known

/-- The native type and the export name of every declaration that the requests export. -/
def exportedTypes (requests : List Request) : Except StartError (Dictionary Shape String) :=
  requests.foldlM addExported []

/-- The native types of the sealed classes that the requests export. -/
def sealedTypes (requests : List Request) : List Shape :=
  requests.filterMap fun
    | .declaration (.sealed d) _ => some d.toHeader.shape
    | _ => none

/-- The context of a session. -/
def start (requests : List Request) (extraExceptions : List Shape) (erase : Bool) :
    Except StartError Context := do
  let exported ← exportedTypes requests
  let table ← (Table.ofSession exported extraExceptions erase).mapError .registration
  .ok (Context.ofSession table exported (sealedTypes requests) erase)

/-- Handles all requests in a context. -/
def exportAll (ctx : Context) (requests : List Request) : List ExportResult :=
  requests.map (Request.fulfil ctx)

/-- What is logged while a session runs. -/
def sessionLines (ctx : Context) (requests : List Request) : List Log.Line :=
  ctx.table.frozenLine :: requests.flatMap (Request.fulfilLines ctx)

/-- The outcome of a session. -/
structure Outcome where
  results : List ExportResult
  log : List Log.Line

/-- Runs a session. -/
def run (requests : List Request) (extraExceptions : List Shape) (erase : Bool) :
    Except StartError Outcome := do
  let ctx ← start requests extraExceptions erase
  .ok ⟨exportAll ctx requests, sessionLines ctx requests⟩

/-- What is said when a worker is asked before it was set up. -/
def workerNotReady : String :=
  "Worker process used before _worker_init ran"

end Session
end Facade
