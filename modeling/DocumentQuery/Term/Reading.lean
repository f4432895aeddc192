import DocumentQuery.Datum.Reading
import DocumentQuery.Term.Basic
import DocumentQuery.Wire.Failure

/-!
# Reading terms and failures from data

A datum fetched from the server may itself describe a kind of term, a term or
a failure; these readers take it as one.
-/

namespace DocumentQuery

namespace Reader

def termKind : Reader TermKind := choice (TermKind.all.map TermKind.name) TermKind.ofName?

def termType : RecordType where
  what := "struct Term"
  fields := [("type", .required), ("args", .defaulted), ("optargs", .defaulted),
    ("datum", .defaulted)]
  closed := false

/-- One field of a term, whose parts are read by `part`. -/
def setTermField (part : Reader Term) (t : Term) (name : String) (d : Datum) :
    Except Mismatch Term :=
  if name = "type" then do return { t with kind := ← termKind d }
  else if name = "args" then do return { t with args := ← list part d }
  else if name = "optargs" then do return { t with options := ← fields part d }
  else do return { t with value := ← option any d }

/-- A term with at most `height` containers inside each other. -/
def termWithin : (height : Nat) → Reader Term
  | 0 => wrongType termType.what
  | height + 1 => record termType default (setTermField (termWithin height))

/-- A term.  Each part of a term is lower than the term itself. -/
def term : Reader Term := fun d => termWithin (d.height + 1) d

def stage : Reader Stage := choice (Stage.all.map Stage.name) Stage.ofName?

def failureType : RecordType where
  what := "struct QueryFailure"
  fields := [("class", .required), ("message", .required), ("backtrace", .defaulted)]
  closed := false

def failure : Reader Failure :=
  record failureType default fun f name d =>
    if name = "class" then do return { f with stage := ← stage d }
    else if name = "message" then do return { f with message := ← string d }
    else do return { f with trace := ← list string d }

end Reader

end DocumentQuery
