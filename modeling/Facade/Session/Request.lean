import Facade.Wrapper.Basic
import Facade.Declaration.Instantiate

/-!
# Requests

A request asks for the wrapper of a declaration, or for the wrapper of one instantiation of a
generic declaration under a name of its own.  Every request is handled on its own: whatever goes
wrong becomes a diagnostic of the request.
-/

namespace Facade

open Wrapper

/-- What to export, and from where it was asked for. -/
inductive Request where
  | declaration (decl : Declaration) (sources : List Location)
  | generics (name : String) (decl : Declaration) (args : List Shape) (sources : List Location)
deriving DecidableEq, Repr

namespace Request

/-- The declaration that a request is about. -/
def decl : Request → Declaration
  | declaration d _ => d
  | generics _ d _ _ => d

/-- Where a request was made. -/
def requestedAt : Request → List Location
  | declaration _ sources => sources
  | generics _ _ _ sources => sources

/-- The name of a request in the log. -/
def displayName : Request → String
  | declaration d _ =>
      String.ofList ((d.header.package ++ "." ++ d.header.simpleName).toList.dropWhile (· = '.'))
  | generics name d args _ =>
      name ++ " (" ++ d.header.simpleName ++ "<" ++ ", ".intercalate (Shape.texts args) ++ ">)"

/-- Every location that a request depends on, each once: the declaration first. -/
def sources (r : Request) : List Location :=
  r.requestedAt.foldl (fun known l => if l ∈ known then known else known ++ [l])
    r.decl.origin.toList

end Request

/-- The outcome of a request. -/
structure ExportResult where
  file : Option Source.File
  diagnostics : List Diagnostic := []
  sources : List Location := []

/-- Whether a file was generated. -/
def ExportResult.ok (r : ExportResult) : Bool :=
  r.file.isSome

namespace Request

/-- The declaration that is wrapped: the declaration itself, or the instance that was asked for. -/
def subject (r : Request) : Except Failure Declaration :=
  match r with
  | declaration d _ => .ok d
  | generics name d args _ => (d.instantiate args (some name)).mapError Failure.refused

/-- The file that a request asks for. -/
def build (ctx : Context) (r : Request) : Except Failure Source.File := do
  ofDeclaration ctx (← r.subject)

/-- What is logged while the file is built. -/
def buildNotes (ctx : Context) (r : Request) : List Log.Line :=
  match r.subject with
  | .ok d => notes ctx d
  | .error _ => []

/-- The diagnostic of a failure that is no refusal. -/
def internalError (origin : Option Location) (message : String) : Diagnostic :=
  { severity := .error
    message := "Internal error: ValueError(" ++ Text.quoted message ++ ")"
    location := origin }

/-- The diagnostic of a failure; one that is no refusal is reported as an internal error. -/
def diagnose (origin : Option Location) : Failure → Diagnostic
  | .refused r => .ofRefusal (r.placed origin none)
  | .noArguments key => internalError origin (Failure.noArguments key).message
  | .overlong o => internalError origin o.message

/-- What is logged about the outcome of a request. -/
def outcomeLines (r : Request) (outcome : Except Failure Source.File) : List Log.Line :=
  let skipping := fun f =>
    Log.warning ("Skipping " ++ r.displayName ++ ": " ++ (diagnose r.decl.origin f).text)
  let unexpected := Log.debug ("Unexpected failure while exporting " ++ r.displayName)
  match outcome with
  | .ok _ => [Log.debug ("Exported " ++ r.displayName)]
  | .error (.refused refusal) => [skipping (.refused refusal)]
  | .error (.noArguments key) => [unexpected, skipping (.noArguments key)]
  | .error (.overlong o) => [unexpected, skipping (.overlong o)]

/-- Handles a request on its own. -/
def fulfil (ctx : Context) (r : Request) : ExportResult :=
  match r.build ctx with
  | .ok file => { file := some file, sources := r.sources }
  | .error f => { file := none, diagnostics := [diagnose r.decl.origin f], sources := r.sources }

/-- What is logged while a request is handled. -/
def fulfilLines (ctx : Context) (r : Request) : List Log.Line :=
  r.buildNotes ctx ++ r.outcomeLines (r.build ctx)

end Request

end Facade
