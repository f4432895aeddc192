import DocumentQuery.Datum.Basic
import DocumentQuery.Json.Reader

/-!
# Document values as JSON

Every datum is written as the JSON value of the same shape; numbers use the
document layout, and one that is not finite is written as null.  Of a name
repeated in an object the last value stays.
-/

namespace DocumentQuery.Datum

mutual

def toJson : Datum → Json
  | .null => .null
  | .bool value => .bool value
  | .number value => .ofBinary .document value
  | .string value => .ofText value
  | .array items => .array (itemsToJson items)
  | .object fields => .object (fieldsToJson fields)

def itemsToJson : List Datum → List Json
  | [] => []
  | item :: rest => toJson item :: itemsToJson rest

def fieldsToJson : List (String × Datum) → List (Option String × Json)
  | [] => []
  | (name, value) :: rest => (some name, toJson value) :: fieldsToJson rest

end

/-- The datum a document denotes, if at most `depth` containers stand inside
each other. -/
def ofJson? : (depth : Nat) → Json → Option Datum
  | _, .null => some .null
  | _, .bool value => some (.bool value)
  | _, .number value => value.toNumber?.map .number
  | _, .string value => value.map .string
  | 0, _ => none
  | depth + 1, .array items => (items.mapM (ofJson? depth)).map .array
  | depth + 1, .object members =>
    (members.mapM fun (member : Option String × Json) => do
      return (← member.1, ← ofJson? depth member.2)).map .ofPairs

def write (d : Datum) : String := d.toJson.write

def parse? (text : String) : Option Datum := do
  let json ← Json.parse? text
  ofJson? Json.maxDepth json

end DocumentQuery.Datum
