import DocumentQuery.Datum.Basic

/-!
# Reading a datum as a value of a type

A reader takes a datum to a value of some type, or says why it cannot: the
datum is of another kind, its value is out of range, it has too few or too
many items, or a field is missing or unknown.  The readers here are the
building blocks; a record is read from an object by name, in the order of the
names, or from an array by position.
-/

namespace DocumentQuery

-- Powers are those of the core library, whatever else is imported.
attribute [local instance (2000)] instPowNat

/-- What a reader found in place of what it expected. -/
inductive Found where
  | nothing
  | bool (value : Bool)
  | number (value : Number)
  | text (value : String)
  | sequence
  | map
  | plainChoice
  | kind (typeName : String)
  deriving Repr

/-- Why a datum cannot be read as a value of a type. -/
inductive Mismatch where
  | wrongType (found : Found) (expected : String)
  | wrongValue (found : Found) (expected : String)
  | wrongLength (length : Nat) (expected : String)
  | missingField (name : String)
  | unknownField (name : String) (known : List String)
  | unknownChoice (name : String) (known : List String)
  deriving Repr

/-- Takes a datum to a value, or says why it cannot. -/
abbrev Reader (α : Type) := Datum → Except Mismatch α

namespace Found

def ofDatum : Datum → Found
  | .null => .nothing
  | .bool value => .bool value
  | .number value => .number value
  | .string value => .text value
  | .array _ => .sequence
  | .object _ => .map

/-- What was found, in words.  A finite number always shows a point. -/
def describe : Found → String
  | .nothing => "unit value"
  | .bool value => "boolean `" ++ (if value then "true" else "false") ++ "`"
  | .number value =>
    let text := value.display
    let point := if value.isFinite && !text.contains '.' then ".0" else ""
    "floating point `" ++ text ++ point ++ "`"
  | .text value => "string " ++ Text.quoted value
  | .sequence => "sequence"
  | .map => "map"
  | .plainChoice => "unit variant"
  | .kind typeName => typeName

end Found

namespace Mismatch

/-- A choice of names, in words. -/
def oneOf : List String → String
  | [] => "there are no fields"
  | [a] => "expected `" ++ a ++ "`"
  | [a, b] => "expected `" ++ a ++ "` or `" ++ b ++ "`"
  | names => "expected one of " ++ ", ".intercalate (names.map fun name => "`" ++ name ++ "`")

def message : Mismatch → String
  | .wrongType found expected => "invalid type: " ++ found.describe ++ ", expected " ++ expected
  | .wrongValue found expected => "invalid value: " ++ found.describe ++ ", expected " ++ expected
  | .wrongLength length expected =>
    "invalid length " ++ toString length ++ ", expected " ++ expected
  | .missingField name => "missing field `" ++ name ++ "`"
  | .unknownField name known => "unknown field `" ++ name ++ "`, " ++ oneOf known
  | .unknownChoice name known => "unknown variant `" ++ name ++ "`, " ++ oneOf known

end Mismatch

/-- An integer type: its name and its least and greatest values. -/
structure IntegerType where
  name : String
  low : Int
  high : Int
  deriving DecidableEq, Repr

namespace IntegerType

def signed (bits : Nat) : IntegerType :=
  ⟨"i" ++ toString bits, -2 ^ (bits - 1), 2 ^ (bits - 1) - 1⟩

def unsigned (bits : Nat) : IntegerType :=
  ⟨"u" ++ toString bits, 0, 2 ^ bits - 1⟩

end IntegerType

/-- Whether a field of a record has to be given. -/
inductive Presence where
  /-- Always. -/
  | required
  /-- Not in an object. -/
  | optional
  /-- Not in an object, and not at the end of an array. -/
  | defaulted
  deriving DecidableEq, Repr

/-- A record type: how it is called, its fields in order, and whether an object
may have others. -/
structure RecordType where
  what : String
  fields : List (String × Presence)
  closed : Bool
  deriving Repr

namespace Reader

variable {α : Type}

def wrongType (expected : String) (d : Datum) : Except Mismatch α :=
  .error (.wrongType (.ofDatum d) expected)

def bool : Reader Bool
  | .bool value => .ok value
  | d => wrongType "a boolean" d

/-- An integer of the type.  A number is taken only if it is exactly such an
integer. -/
def integer (type : IntegerType) : Reader Int
  | .number value =>
    match value.toIntBetween? type.low type.high with
    | some i => .ok i
    | none => .error (.wrongValue (.number value) type.name)
  | d => wrongType type.name d

/-- A type that takes no datum at all. -/
def never (expected : String) : Reader α := wrongType expected

def number : Reader Number
  | .number value => .ok value
  | d => wrongType "f64" d

/-- Any number, rounded to the narrow format. -/
def narrowNumber : Reader (Binary .single)
  | .number value => .ok value.convert
  | d => wrongType "f32" d

def char : Reader Char
  | .string value =>
    match value.toList with
    | [c] => .ok c
    | _ => .error (.wrongValue (.text value) "a character")
  | d => wrongType "a character" d

def string : Reader String
  | .string value => .ok value
  | d => wrongType "a string" d

/-- Null, standing for the only value of a type. -/
def unit (expected : String) : Reader Unit
  | .null => .ok ()
  | d => wrongType expected d

/-- Null for nothing, anything else as the reader takes it. -/
def option (read : Reader α) : Reader (Option α)
  | .null => .ok none
  | d => (read d).map some

def list (read : Reader α) : Reader (List α)
  | .array items => items.mapM read
  | d => wrongType "a sequence" d

/-- An object with any names. -/
def fields (read : Reader α) : Reader (Fields α)
  | .object pairs => do
    let values ← pairs.mapM fun (pair : String × Datum) => do return (pair.1, ← read pair.2)
    return Fields.ofList values
  | d => wrongType "a map" d

mutual

/-- Any value, rebuilt piece by piece. -/
def any : Reader Datum
  | .null => .ok .null
  | .bool value => .ok (.bool value)
  | .number value => .ok (.number value)
  | .string value => .ok (.string value)
  | .array items => do return .array (← anyItems items)
  | .object pairs => do return .object (← anyFields [] pairs)

def anyItems : List Datum → Except Mismatch (List Datum)
  | [] => .ok []
  | item :: rest => do
    let item ← any item
    let rest ← anyItems rest
    return item :: rest

def anyFields (done : Fields Datum) : List (String × Datum) → Except Mismatch (Fields Datum)
  | [] => .ok done
  | (name, value) :: rest => do
    let value ← any value
    anyFields (Fields.insert name value done) rest

end

/-- One of some named choices that carry nothing. -/
def choice (names : List String) (ofName? : String → Option α) : Reader α
  | .string value =>
    match ofName? value with
    | some choice => .ok choice
    | none => .error (.unknownChoice value names)
  | d => .error (.wrongType (.kind d.typeName) "a string naming an enum variant")

def elements (n : Nat) : String := toString n ++ (if n = 1 then " element" else " elements")

/-- Takes one field after the other into what has been read so far. -/
def setFields (type : RecordType) (set : α → String → Reader α) :
    α → List (String × Datum) → Except Mismatch α
  | done, [] => .ok done
  | done, (name, value) :: rest =>
    if type.fields.any fun field => field.1 == name then do
      let done ← set done name value
      setFields type set done rest
    else if type.closed then .error (.unknownField name (type.fields.map Prod.fst))
    else setFields type set done rest

/-- Takes the items of an array as the fields in order, and says what is left of
each once one of them runs out. -/
def setItems (set : α → String → Reader α) :
    α → List (String × Presence) → List Datum →
      Except Mismatch (α × List (String × Presence) × List Datum)
  | done, field :: fields, item :: items => do
    let done ← set done field.1 item
    setItems set done fields items
  | done, fields, items => .ok (done, fields, items)

/-- A record, given what `set` makes of each field and what the record is when
no field is given. -/
def record (type : RecordType) (start : α) (set : α → String → Reader α) : Reader α
  | .object pairs => do
    let done ← setFields type set start pairs
    match type.fields.find? fun field =>
        decide (field.2 = .required) && !Fields.contains field.1 pairs with
    | some field => .error (.missingField field.1)
    | none => return done
  | .array items => do
    let (done, missing, extra) ← setItems set start type.fields items
    match missing.findIdx? fun field => decide (field.2 ≠ .defaulted) with
    | some i =>
      .error (.wrongLength (items.length + i)
        (type.what ++ " with " ++ elements type.fields.length))
    | none =>
      if extra.isEmpty then return done
      else
        .error (.wrongLength items.length
          (elements type.fields.length ++ " in sequence"))
  | d => wrongType type.what d

/-- A field of a record whose fields are all read as values of one type. -/
structure Field (α : Type) where
  name : String
  presence : Presence
  read : Reader α
  /-- What stands for the field when it is not given. -/
  absent : α

/-- Replaces the value of a name by what its field reads. -/
def Field.set (fields : List (Field α)) (done : Fields α) (name : String) :
    Reader (Fields α) := fun d =>
  match fields.find? fun field => field.name == name with
  | none => .ok done
  | some field => do
    let value ← field.read d
    return done.map fun pair => if pair.1 == name then (name, value) else pair

/-- A record as the values of its fields, in their order. -/
def recordFields (what : String) (closed : Bool) (fields : List (Field α)) :
    Reader (Fields α) :=
  record ⟨what, fields.map fun field => (field.name, field.presence), closed⟩
    (fields.map fun field => (field.name, field.absent)) (Field.set fields)

/-- A tuple: an array with exactly as many items as there are readers. -/
def tuple (what : String) (short : String) (readers : List (Reader α)) : Reader (List α)
  | .array items => do
    let values ← (readers.zip items).mapM fun (pair : Reader α × Datum) => pair.1 pair.2
    if items.length < readers.length then .error (.wrongLength items.length short)
    else if readers.length < items.length then
      .error (.wrongLength items.length (elements readers.length ++ " in sequence"))
    else return values
  | d => wrongType what d

end Reader

end DocumentQuery
