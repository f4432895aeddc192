import DocumentQuery.Datum.Value
import DocumentQuery.Expr.Basic

/-!
# Constants and collections

An array or an object of constants is itself a constant.  As soon as one
element is computed, the collection becomes an operator that the server
evaluates.
-/

namespace DocumentQuery.Expr

open Build

variable {m : Type → Type} [Monad m]

/-- The values of expressions that are all constants. -/
def literals? (items : List Expr) : Option (List Datum) := items.mapM literal?

/-- The values of named expressions that are all constants. -/
def literalFields? (fields : Fields Expr) : Option (Fields Datum) :=
  fields.mapM fun (field : String × Expr) => do return (field.1, ← field.2.literal?)

def array (items : List Expr) : BuildT m Expr :=
  match literals? items with
  | some values => literal (.array values)
  | none => operator .makeArray items

/-- The object of named expressions; of a repeated name the last one stays. -/
def object (pairs : List (String × Expr)) : BuildT m Expr :=
  let fields := Fields.ofList pairs
  match literalFields? fields with
  | some values => literal (.object values)
  | none => operatorWith .makeObject [] fields

/-- The constant that a document in memory stands for. -/
def ofValue (value : JsonValue) : BuildT m Expr := literal value.toDatum

def ofOption : Option Expr → BuildT m Expr
  | some e => return e
  | none => null

/-- A map whose keys are not texts has no place in a document. -/
def keyNotText : BuildFault := .notRepresentable "key must be a string"

/-- An integer that fits no number of a document. -/
def outOfRange : BuildFault := .notRepresentable "number out of range"

/-- A constant integer, if it fits a signed or an unsigned word. -/
def wideInteger (i : Int) : BuildT m Expr :=
  if -0x8000000000000000 ≤ i ∧ i < 0x10000000000000000 then literal (.ofInt i) else fail outOfRange

/-- A constant number; one that is not finite is null. -/
def finiteOrNull (n : Number) : BuildT m Expr :=
  literal (if n.isFinite then .number n else .null)

end DocumentQuery.Expr
