import DocumentQuery.Fault
import DocumentQuery.Datum.Value

/-!
# Outcomes of writes

The server sums a write up as an object, in one of two forms: counters, some
of them under older names, or a list of changed rows from which the counters
follow.  An outcome is the one form both are brought into.  Each row counts
towards exactly one counter.  Counters are words of 64 bits, and a sum that does
not fit wraps around.
-/

namespace DocumentQuery

/-- The sort of write a summary belongs to. -/
inductive WriteKind where
  | insert
  | update
  | replace
  | delete
  /-- A write for each element, or one whose sort is not known beforehand. -/
  | mixed
  deriving DecidableEq, Repr, Inhabited

namespace WriteKind

def all : List WriteKind := [.insert, .update, .replace, .delete, .mixed]

def name : WriteKind → String
  | .insert => "insert"
  | .update => "update"
  | .replace => "replace"
  | .delete => "delete"
  | .mixed => "mixed"

def ofName? (name : String) : Option WriteKind := all.find? fun kind => kind.name == name

end WriteKind

/-- The counter a row counts towards. -/
inductive Counter where
  | inserted
  | updated
  | modified
  | deleted
  | skipped
  | errors
  deriving DecidableEq, Repr, Inhabited

namespace Counter

def all : List Counter := [.inserted, .updated, .modified, .deleted, .skipped, .errors]

def name : Counter → String
  | .inserted => "inserted"
  | .updated => "updated"
  | .modified => "modified"
  | .deleted => "deleted"
  | .skipped => "skipped"
  | .errors => "errors"

/-- The counter that a field of a summary reports.  What was replaced counts as
modified if the write replaces documents and as updated otherwise; what is
unchanged was skipped. -/
def ofField? (kind : WriteKind) (field : String) : Option Counter :=
  if field = "replaced" then some (if kind = .replace then .modified else .updated)
  else if field = "unchanged" then some .skipped
  else all.find? fun counter => counter.name == field

end Counter

/-- The counter of a row, from the document before and after the write.  A null
document is no document. -/
def classifyRow (kind : WriteKind) (before after : Option Datum) : Counter :=
  match before.filter (!·.isNull), after.filter (!·.isNull) with
  | none, none => .skipped
  | none, some _ => if kind = .update then .skipped else .inserted
  | some _, none => .deleted
  | some old, some new =>
    if old.equals new then .skipped
    else if kind = .replace then .modified
    else .updated

/-- How a write ended: the rows each counter holds, the first error, the keys
the server made up, and the errors of single rows. -/
structure WriteOutcome where
  inserted : UInt64 := 0
  updated : UInt64 := 0
  modified : UInt64 := 0
  deleted : UInt64 := 0
  skipped : UInt64 := 0
  errors : UInt64 := 0
  firstError : Option String := none
  generatedKeys : List Datum := []
  rowErrors : List String := []
  deriving Repr, Inhabited

namespace WriteOutcome

def count (o : WriteOutcome) : Counter → UInt64
  | .inserted => o.inserted
  | .updated => o.updated
  | .modified => o.modified
  | .deleted => o.deleted
  | .skipped => o.skipped
  | .errors => o.errors

/-- The outcome with `n` more rows under a counter. -/
def add (n : UInt64) (o : WriteOutcome) : Counter → WriteOutcome
  | .inserted => { o with inserted := o.inserted + n }
  | .updated => { o with updated := o.updated + n }
  | .modified => { o with modified := o.modified + n }
  | .deleted => { o with deleted := o.deleted + n }
  | .skipped => { o with skipped := o.skipped + n }
  | .errors => { o with errors := o.errors + n }

def increment (o : WriteOutcome) (counter : Counter) : WriteOutcome := o.add 1 counter

/-- All rows the write touched or tried to touch. -/
def total (o : WriteOutcome) : UInt64 :=
  o.inserted + o.updated + o.modified + o.deleted + o.skipped + o.errors

@[simp] theorem count_add (n : UInt64) (o : WriteOutcome) (counter other : Counter) :
    (o.add n counter).count other = o.count other + if counter = other then n else 0 := by
  cases counter <;> cases other <;> simp [add, count]

@[simp] theorem total_add (n : UInt64) (o : WriteOutcome) (counter : Counter) :
    (o.add n counter).total = o.total + n := by
  cases counter <;> simp only [add, total] <;> ac_rfl

/-- A text as it is, anything else as text for people. -/
def errorText : Datum → String
  | .string text => text
  | d => d.display

/-- Takes one changed row in.  Its error is kept in any case; towards a counter
it counts only if `counting`. -/
def addChange (kind : WriteKind) (counting : Bool) (o : WriteOutcome) (change : Datum) :
    WriteOutcome :=
  match change.field? "error" with
  | some error =>
    let o := { o with rowErrors := o.rowErrors ++ [errorText error] }
    if counting then o.increment .errors else o
  | none =>
    if counting then
      o.increment (classifyRow kind (change.field? "old_val") (change.field? "new_val"))
    else o

/-- Whether a summary reports any counter, so that changed rows are not counted. -/
def hasCounts (kind : WriteKind) (fields : Fields Datum) : Bool :=
  (Fields.names fields).any fun name => (Counter.ofField? kind name).isSome

/-- Takes one field of a summary in. -/
def addField (kind : WriteKind) (counting : Bool) (o : WriteOutcome) (name : String)
    (d : Datum) : Except DecodeFault WriteOutcome :=
  match Counter.ofField? kind name with
  | some counter =>
    match d.asWord? with
    | some n => .ok (o.add (.ofNat n) counter)
    | none => .error (.notCount name d)
  | none =>
    if name = "first_error" then
      .ok { o with firstError := if d.isNull then none else some (errorText d) }
    else if name = "generated_keys" then
      match d.asArray? with
      | some keys => .ok { o with generatedKeys := keys }
      | none => .error (.notArray name d.typeName)
    else if name = "changes" then
      match d.asArray? with
      | some changes => .ok (changes.foldl (addChange kind counting) o)
      | none => .error (.notArray name d.typeName)
    else .ok o

/-- The names of summary fields that stand for something. -/
def isKnownField (kind : WriteKind) (name : String) : Bool :=
  (Counter.ofField? kind name).isSome || ["first_error", "generated_keys", "changes"].contains name

def addFields (kind : WriteKind) (counting : Bool) :
    WriteOutcome → Fields Datum → Except DecodeFault WriteOutcome
  | o, [] => .ok o
  | o, (name, d) :: rest => do
    let o ← addField kind counting o name d
    addFields kind counting o rest

/-- The fields that stand for nothing, up to the first one that cannot be taken
in. -/
def ignoredFields (kind : WriteKind) : Fields Datum → List String
  | [] => []
  | (name, d) :: rest =>
    match addField kind false {} name d with
    | .error _ => []
    | .ok _ =>
      if isKnownField kind name then ignoredFields kind rest
      else name :: ignoredFields kind rest

/-- The fields of a summary that stand for nothing, up to the first one that
cannot be taken in. -/
def ignoredFieldsOf (kind : WriteKind) (d : Datum) : List String :=
  (d.asObject?.map (ignoredFields kind)).getD []

/-- An outcome without an error of its own reports that of the first failed row. -/
def settleFirstError (o : WriteOutcome) : WriteOutcome :=
  { o with firstError := o.firstError <|> o.rowErrors.head? }

/-- The outcome that a summary reports. -/
def ofDatum (kind : WriteKind) (d : Datum) : Except DecodeFault WriteOutcome :=
  match d.asObject? with
  | none => .error (.notSummary d.typeName)
  | some fields => do
    let o ← addFields kind (!hasCounts kind fields) {} fields
    return o.settleFirstError

/-- A write of one document touches at most one row, so no counter exceeds one. -/
def checkPoint (o : WriteOutcome) : Except DecodeFault Unit :=
  match Counter.all.find? fun counter => decide (1 < o.count counter) with
  | some counter => .error (.manyRows (o.count counter).toNat counter.name)
  | none => .ok ()

def display (o : WriteOutcome) : String :=
  " ".intercalate
      (Counter.all.map fun counter => counter.name ++ "=" ++ toString (o.count counter)) ++
    (match o.firstError with
      | some text => " first_error=" ++ Text.quoted text
      | none => "")

/-- An error of a single row as a document. -/
def rowErrorToValue (text : String) : JsonValue := .object [("message", .string text)]

def rowErrorToJson (text : String) : Json := (rowErrorToValue text).toJson

/-- An outcome as a document. -/
def toValue (o : WriteOutcome) : JsonValue :=
  .object
    (Counter.all.map (fun counter => (counter.name, .word (o.count counter))) ++
      [("first_error", o.firstError.elim .null .string),
       ("generated_keys", .array (Datum.itemsToValue o.generatedKeys)),
       ("row_errors", .array (o.rowErrors.map rowErrorToValue))])

def toJson (o : WriteOutcome) : Json := o.toValue.toJson

end WriteOutcome

namespace Reader

def writeKind : Reader WriteKind := choice (WriteKind.all.map WriteKind.name) WriteKind.ofName?

def rowError : Reader String :=
  record ⟨"struct RowError", [("message", .required)], false⟩ "" fun _ _ d => string d

def outcomeType : RecordType where
  what := "struct WriteOutcome"
  fields := Counter.all.map (fun counter => (counter.name, .required)) ++
    [("first_error", .optional), ("generated_keys", .required), ("row_errors", .required)]
  closed := false

/-- An outcome in its own written form. -/
def writeOutcome : Reader WriteOutcome :=
  record outcomeType {} fun o name d =>
    match Counter.all.find? fun counter => counter.name == name with
    | some counter => do return o.add (.ofNat (← integer (.unsigned 64) d).toNat) counter
    | none =>
      if name = "first_error" then do return { o with firstError := ← option string d }
      else if name = "generated_keys" then do return { o with generatedKeys := ← list any d }
      else do return { o with rowErrors := ← list rowError d }

end Reader

end DocumentQuery
