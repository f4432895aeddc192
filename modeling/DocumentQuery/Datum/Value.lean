import DocumentQuery.Datum.Document

/-!
# Documents in memory

A document that has not become text has no numerals: its integers are words or
negative integers of 64 bits, and its other numbers are binary.  A datum knows
one format of numbers only, so that a document is a datum in which every integer
has become the nearest number.
-/

namespace DocumentQuery

inductive JsonValue where
  | null
  | bool (value : Bool)
  | word (value : UInt64)
  /-- An integer below zero. -/
  | negative (value : Int64)
  | number (value : Number)
  | string (value : String)
  | array (items : List JsonValue)
  | object (members : List (String × JsonValue))
  deriving Repr, Inhabited

namespace JsonValue

mutual

/-- The document as it is written. -/
def toJson : JsonValue → Json
  | .null => .null
  | .bool value => .bool value
  | .word value => .ofNat value.toNat
  | .negative value => .ofInt value.toInt
  | .number value => .ofBinary .document value
  | .string value => .ofText value
  | .array items => .array (itemsToJson items)
  | .object members => .object (membersToJson members)

def itemsToJson : List JsonValue → List Json
  | [] => []
  | item :: rest => toJson item :: itemsToJson rest

def membersToJson : List (String × JsonValue) → List (Option String × Json)
  | [] => []
  | (name, value) :: rest => (some name, toJson value) :: membersToJson rest

end

mutual

/-- The document as a datum; of a repeated name the last value stays. -/
def toDatum : JsonValue → Datum
  | .null => .null
  | .bool value => .bool value
  | .word value => .ofNat value.toNat
  | .negative value => .ofInt value.toInt
  | .number value => .number value
  | .string value => .string value
  | .array items => .array (itemsToDatum items)
  | .object members => .ofPairs (membersToDatum members)

def itemsToDatum : List JsonValue → List Datum
  | [] => []
  | item :: rest => toDatum item :: itemsToDatum rest

def membersToDatum : List (String × JsonValue) → List (String × Datum)
  | [] => []
  | (name, value) :: rest => (name, toDatum value) :: membersToDatum rest

end

end JsonValue

namespace Datum

mutual

/-- A datum as a document; a number that is not finite is null. -/
def toValue : Datum → JsonValue
  | .null => .null
  | .bool value => .bool value
  | .number value => if value.isFinite then .number value else .null
  | .string value => .string value
  | .array items => .array (itemsToValue items)
  | .object fields => .object (fieldsToValue fields)

def itemsToValue : List Datum → List JsonValue
  | [] => []
  | item :: rest => toValue item :: itemsToValue rest

def fieldsToValue : List (String × Datum) → List (String × JsonValue)
  | [] => []
  | (name, value) :: rest => (name, toValue value) :: fieldsToValue rest

end

end Datum

end DocumentQuery
