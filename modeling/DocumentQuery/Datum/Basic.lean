import DocumentQuery.Fields
import DocumentQuery.Number.Layout
import DocumentQuery.Text.Quoted

/-!
# Document values

A datum is a value of the document model: null, a boolean, a number, a text,
an array or an object.  All numbers share one binary format, whether or not
the value was written as an integer, and the fields of an object are in the
order of their names.
-/

namespace DocumentQuery

inductive Datum where
  | null
  | bool (value : Bool)
  | number (value : Number)
  | string (value : String)
  | array (items : List Datum)
  | object (fields : List (String × Datum))
  deriving Repr, Inhabited

namespace Datum

/-- An object from pairs in any order; of a repeated name the last value stays. -/
def ofPairs (pairs : List (String × Datum)) : Datum := .object (Fields.ofList pairs)

def ofInt (i : Int) : Datum := .number (Binary.ofInt i)

def ofNat (n : Nat) : Datum := .number (Binary.ofNat n)

def isNull : Datum → Bool
  | .null => true
  | _ => false

def asBool? : Datum → Option Bool
  | .bool value => some value
  | _ => none

def asNumber? : Datum → Option Number
  | .number value => some value
  | _ => none

/-- The natural number below `2 ^ 64` that the datum is, if it is one. -/
def asWord? : Datum → Option Nat
  | .number value => value.toWord?
  | _ => none

def asString? : Datum → Option String
  | .string value => some value
  | _ => none

def asArray? : Datum → Option (List Datum)
  | .array items => some items
  | _ => none

def asObject? : Datum → Option (Fields Datum)
  | .object fields => some fields
  | _ => none

def field? (name : String) (d : Datum) : Option Datum :=
  d.asObject?.bind (Fields.find? name)

def typeName : Datum → String
  | .null => "null"
  | .bool _ => "bool"
  | .number _ => "number"
  | .string _ => "string"
  | .array _ => "array"
  | .object _ => "object"

mutual

/-- Whether every number in the datum is finite. -/
def isFinite : Datum → Bool
  | .number value => value.isFinite
  | .array items => itemsFinite items
  | .object fields => fieldsFinite fields
  | _ => true

def itemsFinite : List Datum → Bool
  | [] => true
  | item :: rest => isFinite item && itemsFinite rest

def fieldsFinite : List (String × Datum) → Bool
  | [] => true
  | (_, value) :: rest => isFinite value && fieldsFinite rest

end

mutual

/-- Equality of values, with numbers compared numerically: a datum holding
not-a-number differs from itself. -/
def equals : Datum → Datum → Bool
  | .null, .null => true
  | .bool a, .bool b => a == b
  | .number a, .number b => a.equals b
  | .string a, .string b => a == b
  | .array a, .array b => itemsEqual a b
  | .object a, .object b => fieldsEqual a b
  | _, _ => false

def itemsEqual : List Datum → List Datum → Bool
  | [], [] => true
  | a :: as, b :: bs => equals a b && itemsEqual as bs
  | _, _ => false

def fieldsEqual : List (String × Datum) → List (String × Datum) → Bool
  | [], [] => true
  | (m, a) :: as, (n, b) :: bs => m == n && equals a b && fieldsEqual as bs
  | _, _ => false

end

mutual

def display : Datum → String
  | .null => "null"
  | .bool value => if value then "true" else "false"
  | .number value => value.display
  | .string value => Text.quoted value
  | .array items => "[" ++ ", ".intercalate (displayItems items) ++ "]"
  | .object fields => "\x7b" ++ ", ".intercalate (displayFields fields) ++ "\x7d"

def displayItems : List Datum → List String
  | [] => []
  | item :: rest => display item :: displayItems rest

def displayFields : List (String × Datum) → List String
  | [] => []
  | (name, value) :: rest => (Text.quoted name ++ ": " ++ display value) :: displayFields rest

end

mutual

/-- How many containers stand inside each other. -/
def height : Datum → Nat
  | .array items => itemsHeight items + 1
  | .object fields => fieldsHeight fields + 1
  | _ => 0

def itemsHeight : List Datum → Nat
  | [] => 0
  | item :: rest => max (height item) (itemsHeight rest)

def fieldsHeight : List (String × Datum) → Nat
  | [] => 0
  | (_, value) :: rest => max (height value) (fieldsHeight rest)

end

mutual

/-- Whether the fields of every object in the datum ascend by name. -/
def Ordered : Datum → Prop
  | .array items => ItemsOrdered items
  | .object fields => Fields.Sorted fields ∧ FieldsOrdered fields
  | _ => True

def ItemsOrdered : List Datum → Prop
  | [] => True
  | item :: rest => Ordered item ∧ ItemsOrdered rest

def FieldsOrdered : List (String × Datum) → Prop
  | [] => True
  | (_, value) :: rest => Ordered value ∧ FieldsOrdered rest

end

theorem itemsOrdered_iff {items : List Datum} :
    ItemsOrdered items ↔ ∀ d ∈ items, d.Ordered := by
  induction items with
  | nil => simp [ItemsOrdered]
  | cons item rest ih => rw [ItemsOrdered, ih, List.forall_mem_cons]

theorem fieldsOrdered_iff {fields : Fields Datum} :
    FieldsOrdered fields ↔ ∀ field ∈ fields, field.2.Ordered := by
  induction fields with
  | nil => simp [FieldsOrdered]
  | cons field rest ih => rw [FieldsOrdered, ih, List.forall_mem_cons]

end Datum

end DocumentQuery
