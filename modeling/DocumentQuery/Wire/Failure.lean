import DocumentQuery.Term.Document

/-!
# Failures reported by the server

A server that rejects a query says at which stage, with a message and the path
to the failing term.
-/

namespace DocumentQuery

/-- The stage at which the server gave a query up. -/
inductive Stage where
  /-- The request could not be understood. -/
  | client
  /-- A well-formed query could not be prepared. -/
  | compile
  /-- Evaluation failed. -/
  | runtime
  deriving DecidableEq, Repr, Inhabited

namespace Stage

def all : List Stage := [.client, .compile, .runtime]

def name : Stage → String
  | .client => "client"
  | .compile => "compile"
  | .runtime => "runtime"

def ofName? (name : String) : Option Stage := all.find? fun stage => stage.name == name

end Stage

/-- What the server says about a query it rejected.  The trace leads to the
failing term, outermost first. -/
structure Failure where
  stage : Stage
  message : String
  trace : List String
  deriving DecidableEq, Repr, Inhabited

namespace Failure

def display (f : Failure) : String :=
  f.stage.name ++ " error: " ++ f.message ++
    (if f.trace.isEmpty then "" else " (at " ++ " > ".intercalate f.trace ++ ")")

def toMembers (f : Failure) : List (String × Json) :=
  [("class", .ofText f.stage.name), ("message", .ofText f.message)] ++
    (if f.trace.isEmpty then [] else [("backtrace", .array (f.trace.map .ofText))])

/-- A list of texts inside one container. -/
def traceOfJson? (depth : Nat) : Json → Option (List String)
  | .array items => if depth = 0 then none else items.mapM Json.asText?
  | _ => none

def ofJson? (framing : Framing) : (depth : Nat) → Json → Option Failure
  | 0, _ => none
  | depth + 1, json => do
    let parts ← json.record? ["class", "message", "backtrace"]
    match parts with
    | [some stage, some message, trace] =>
      let name ← stage.choice? framing depth
      let stage ← Stage.ofName? name
      let message ← message.asText?
      let trace ← trace.elim (some []) (traceOfJson? depth)
      return ⟨stage, message, trace⟩
    | _ => none

def write (f : Failure) : String := (Json.ofMembers f.toMembers).write

def parse? (text : String) : Option Failure := do
  let json ← Json.parse? text
  ofJson? .alone Json.maxDepth json

end Failure

end DocumentQuery
