import Facade.Wrapper.Class
import Facade.Wrapper.Interface
import Facade.Wrapper.Enumeration
import Facade.Wrapper.Sealed

/-!
# The wrapper of a declaration

Every kind of declaration has its own wrapper; a description of any other kind is refused.
-/

namespace Facade
namespace Wrapper

/-- The file of the wrapper of a declaration. -/
def ofDeclaration (ctx : Context) : Declaration → Except Failure Source.File
  | .cls d => ofClass ctx d
  | .interface d => ofInterface ctx d
  | .sealed d => ofSealed ctx d
  | .enumeration d => ofEnumeration ctx d
  | .other kind header =>
      .error (.refused { cause := .unknownKind kind, location := header.origin })

/-- What is logged while a declaration is wrapped. -/
def notes (ctx : Context) : Declaration → List Log.Line
  | .cls d => classNotes ctx d
  | _ => []

end Wrapper
end Facade
