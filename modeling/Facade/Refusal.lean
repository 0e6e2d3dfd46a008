import Facade.Declaration.Basic
import Facade.Mapping.Convert
import Facade.Text.Quoted

/-!
# Refusals and diagnostics

A declaration that cannot be exported is refused.  A refusal has a cause and may say where the
declaration comes from and which member it is about; both are filled in by whoever knows them first.
A diagnostic is what the user is told about a refusal.
-/

namespace Facade

namespace Refusal

/-- The families of causes. -/
inductive Kind where
  | general
  | unsupported
  | unmappable
  | arity
  | openGenerics
deriving DecidableEq, Repr

/-- Why a declaration is refused. -/
inductive Cause where
  /-- A type has no counterpart that can be shown. -/
  | unmappable (shape : Shape) (reason : String)
  /-- A declaration has open type parameters. -/
  | openGenerics (name : String) (params : List String)
  /-- The number of type arguments is not that of the type parameters. -/
  | arity (params : List String) (given : Nat)
  /-- A class extends a class that is no sealed class of the session. -/
  | unsealedBase (name : String) (base : Key)
  /-- An enumeration names an entry twice. -/
  | repeatedEntries (name : String) (entries : List String)
  /-- The holder of the entries has the name of another declaration. -/
  | holderClash (name holder : String)
  /-- A declaration that takes no type arguments is instantiated. -/
  | notGeneric (name : String)
  /-- The description is of a kind that no wrapper exists for. -/
  | unknownKind (kind : String)
  /-- An annotation class. -/
  | annotationClass (name : String)
  /-- An object declaration. -/
  | objectDeclaration (name : String)
  /-- A class that was asked for cannot be loaded or described. -/
  | cannotLoad (className detail : String)
  /-- A cause in the words of the caller. -/
  | stated (kind : Kind) (message : String)
deriving DecidableEq, Repr

namespace Cause

/-- The family of a cause. -/
def kind : Cause → Kind
  | unmappable _ _ => .unmappable
  | openGenerics _ _ => .openGenerics
  | arity _ _ => .arity
  | cannotLoad _ _ => .general
  | stated kind _ => kind
  | _ => .unsupported

/-- The cause in words. -/
def message : Cause → String
  | unmappable shape reason => Mapping.unmappableMessage shape reason
  | openGenerics name params =>
      name ++ "<" ++ ", ".intercalate params ++
        "> cannot be exported with open generic parameters, " ++
        "request a generics instantiation instead"
  | arity params given =>
      "Expected " ++ toString params.length ++ " type argument(s) <" ++ ", ".intercalate params ++
        ">, got " ++ toString given
  | unsealedBase name base =>
      name ++ " extends " ++ base.qualified ++
        ", only sealed classes exported in the same session can be extended by an exported class"
  | repeatedEntries name entries =>
      name ++ " declares duplicated entries " ++ Text.quotedList entries
  | holderClash name holder =>
      "The entries of " ++ name ++ " are exported as `" ++ holder ++
        "`, which clashes with the exported declaration " ++ holder ++ " of the same package"
  | notGeneric name => name ++ " cannot be instantiated with type arguments"
  | unknownKind kind => "Cannot export a " ++ kind
  | annotationClass name => "Annotation class " ++ name ++ " cannot be exported"
  | objectDeclaration name => "Object declaration " ++ name ++ " cannot be exported"
  | cannotLoad className detail => "Cannot load " ++ className ++ ": " ++ detail
  | stated _ message => message

end Cause

end Refusal

/-- A refused declaration. -/
structure Refusal where
  cause : Refusal.Cause
  location : Option Location := none
  member : Option String := none
deriving DecidableEq, Repr

namespace Refusal

/-- The refusal with a location and a member, unless it has them already. -/
def placed (r : Refusal) (location : Option Location) (member : Option String) : Refusal :=
  { r with location := r.location.or location, member := r.member.or member }

end Refusal

/-- How grave a diagnostic is. -/
inductive Severity where
  | error
  | warning
deriving DecidableEq, Repr, Inhabited

/-- The word for a severity. -/
def Severity.text : Severity → String
  | error => "error"
  | warning => "warning"

/-- What the user is told about a declaration that was skipped. -/
structure Diagnostic where
  severity : Severity
  message : String
  location : Option Location := none
  member : Option String := none
deriving DecidableEq, Repr, Inhabited

namespace Diagnostic

/-- The diagnostic of a refusal. -/
def ofRefusal (r : Refusal) : Diagnostic :=
  ⟨.error, r.cause.message, r.location, r.member⟩

/-- Location, member and message, as far as they are known. -/
def text (d : Diagnostic) : String :=
  let location := d.location.toList.map Location.text
  let member := d.member.toList.filter fun m => !m.isEmpty
  ": ".intercalate (location ++ member ++ [d.message])

end Diagnostic

/-- Why no file is generated for a declaration. -/
inductive Failure where
  /-- The declaration is refused. -/
  | refused (refusal : Refusal)
  /-- A collection type has no element type. -/
  | noArguments (key : Key)
  /-- The number of a function type cannot be read. -/
  | overlong (cause : Text.Overlong)
deriving DecidableEq, Repr

namespace Failure

/-- The failure of a conversion that concerns no member. -/
def ofFault : Mapping.Fault → Failure
  | .noArguments key => .noArguments key
  | .unmappable shape => .refused { cause := .unmappable shape Mapping.unmappableReason }
  | .overlong o => .overlong o

/-- The failure with a location and a member, where it can hold them. -/
def placed (f : Failure) (location : Option Location) (member : Option String) : Failure :=
  match f with
  | refused r => refused (r.placed location member)
  | noArguments key => noArguments key
  | overlong o => overlong o

/-- The failure in words. -/
def message : Failure → String
  | refused r => r.cause.message
  | noArguments key => (Mapping.Fault.noArguments key).message
  | overlong o => o.message

end Failure

end Facade
