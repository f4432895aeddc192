import DocumentQuery.Datum.Document
import DocumentQuery.Term.Basic

/-!
# Terms as JSON

A term is a record of its kind, arguments, options and value, and whatever is
empty is left out.  Reading takes each record as an object or, by position, as
an array.
-/

namespace DocumentQuery

/-- How a record is met: on its own, or as part of a message whose tag was
looked up first.  In a message the name of a choice may also be written with
an empty object. -/
inductive Framing where
  | alone
  | tagged
  deriving DecidableEq, Repr

/-- The name of a choice: a string, or an object that maps the name to nothing. -/
def Json.choice? (framing : Framing) (depth : Nat) : Json → Option String
  | .string value => value
  | .object [(name, .null)] => if depth = 0 then none else name
  | .object [(name, .object [])] => if framing = .tagged then name else none
  | _ => none

namespace Term

mutual

def toJson : Term → Json
  | ⟨kind, args, options, value⟩ =>
    .object
      ((some "type", .ofText kind.name)
        :: (if args.isEmpty then [] else [(some "args", .array (argsToJson args))])
        ++ (if options.isEmpty then []
          else [(some "optargs", .object (optionsToJson options))])
        ++ (match value with
          | none => []
          | some d => [(some "datum", d.toJson)]))

def argsToJson : List Term → List Json
  | [] => []
  | arg :: rest => toJson arg :: argsToJson rest

def optionsToJson : List (String × Term) → List (Option String × Json)
  | [] => []
  | (name, option) :: rest => (some name, toJson option) :: optionsToJson rest

end

/-- A list of documents read one by one, inside one container. -/
def listOfJson? (depth : Nat) (item : Json → Option Term) : Json → Option (List Term)
  | .array items => if depth = 0 then none else items.mapM item
  | _ => none

/-- Named documents read one by one, inside one container; of a repeated name
the last stays. -/
def fieldsOfJson? (depth : Nat) (item : Json → Option Term) : Json → Option (Fields Term)
  | .object members =>
    if depth = 0 then none
    else
      (members.mapM fun (member : Option String × Json) => do
        return (← member.1, ← item member.2)).map Fields.ofList
  | _ => none

/-- The value part of a term, where null counts as absent. -/
def valueOfJson? (depth : Nat) : Option Json → Option (Option Datum)
  | none | some .null => some none
  | some json => (Datum.ofJson? depth json).map some

/-- The term a document denotes, if at most `depth` containers stand inside
each other. -/
def ofJson? (framing : Framing) : (depth : Nat) → Json → Option Term
  | 0, _ => none
  | depth + 1, json => do
    let child : Json → Option Term :=
      match depth with
      | 0 => fun _ => none
      | inner + 1 => ofJson? framing inner
    let parts ← json.record? ["type", "args", "optargs", "datum"]
    match parts with
    | [some kind, args, options, value] =>
      let name ← kind.choice? framing depth
      let kind ← TermKind.ofName? name
      let args ← (args.elim (some []) (listOfJson? depth child))
      let options ← (options.elim (some []) (fieldsOfJson? depth child))
      let value ← valueOfJson? depth value
      return ⟨kind, args, options, value⟩
    | _ => none

def write (t : Term) : String := t.toJson.write

def parse? (text : String) : Option Term := do
  let json ← Json.parse? text
  ofJson? .alone Json.maxDepth json

def writeFields (fields : Fields Term) : String := (Json.object (optionsToJson fields)).write

def parseFields? (text : String) : Option (Fields Term) := do
  let json ← Json.parse? text
  fieldsOfJson? Json.maxDepth (ofJson? .alone (Json.maxDepth - 1)) json

end Term

end DocumentQuery
