import DocumentQuery.Number.Layout
import DocumentQuery.Number.Scaling

/-!
# JSON documents

A document is kept as it was written: members stay in their order, repeated
names included, and a number stays a numeral, so that each reader decides what
they mean.  A string can spell an unpaired surrogate, which is no text; such a
string is kept without one.
-/

namespace DocumentQuery

/-- A JSON document.  A string that is no text is `none`. -/
inductive Json where
  | null
  | bool (value : Bool)
  | number (value : Numeral)
  | string (value : Option String)
  | array (items : List Json)
  | object (members : List (Option String × Json))
  deriving Repr, Inhabited

namespace Json

/-- How many arrays and objects may stand inside each other. -/
def maxDepth : Nat := 127

def ofText (s : String) : Json := .string (some s)

def ofNat (n : Nat) : Json := .number ⟨false, n, none, none⟩

def ofInt (i : Int) : Json := .number ⟨decide (i < 0), i.natAbs, none, none⟩

/-- A number in the given layout; what is not finite is null. -/
def ofBinary {p : Precision} (layout : Layout) (n : Binary p) : Json :=
  match n.toNumeral? layout with
  | some numeral => .number numeral
  | none => .null

def ofMembers (members : List (String × Json)) : Json :=
  .object (members.map fun (name, value) => (some name, value))

def asText? : Json → Option String
  | .string value => value
  | _ => none

/-- The natural number below `2 ^ 64` that is written out in full. -/
def asWord? : Json → Option Nat
  | .number value => value.toWord?
  | _ => none

/-- The value of a member that may be absent but not repeated. -/
def member? (name : String) (members : List (Option String × Json)) : Option (Option Json) :=
  match members.filter fun member => decide (member.1 = some name) with
  | [] => some none
  | [member] => some (some member.2)
  | _ => none

/-- The parts of a record, in the order of their names.  An object gives each
by its name, none of them twice, and may hold more; an array gives the leading
ones by their place. -/
def record? (names : List String) : Json → Option (List (Option Json))
  | .object members =>
    if members.all fun member => member.1.isSome then
      names.mapM fun name => member? name members
    else none
  | .array items =>
    if items.length ≤ names.length then
      some (items.map some ++ List.replicate (names.length - items.length) none)
    else none
  | _ => none

/-- Whether everything in the document has a value: strings are texts, numbers
are in range, and at most `depth` containers stand inside each other. -/
def isSound : (depth : Nat) → Json → Bool
  | _, .null => true
  | _, .bool _ => true
  | _, .number value => value.toNumber?.isSome
  | _, .string value => value.isSome
  | 0, _ => false
  | depth + 1, .array items => items.all (isSound depth)
  | depth + 1, .object members =>
    members.all fun member => member.1.isSome && isSound depth member.2

end Json

end DocumentQuery
