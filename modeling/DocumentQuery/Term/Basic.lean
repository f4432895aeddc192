import DocumentQuery.Datum.Basic
import DocumentQuery.Term.Kind

/-!
# Terms

A term is one node of a compiled query: a kind, its positional arguments and
its named options.  A literal is a term of kind `datum` that carries its
value; without one it is null.
-/

namespace DocumentQuery

/-- A node of a compiled query. -/
structure Term where
  kind : TermKind
  args : List Term
  options : List (String × Term)
  value : Option Datum
  deriving Repr, Inhabited

namespace Term

def ofArgs (kind : TermKind) (args : List Term) : Term := ⟨kind, args, [], none⟩

/-- A literal.  Null is the literal without a value. -/
def literal (d : Datum) : Term := ⟨.datum, [], [], if d.isNull then none else some d⟩

def withOption (t : Term) (name : String) (option : Term) : Term :=
  { t with options := Fields.insert name option t.options }

def literal? (t : Term) : Option Datum :=
  if t.kind = .datum then some (t.value.getD .null) else none

mutual

/-- The kinds of a term and of everything below it: the term itself, then its
arguments, then its options. -/
def kinds : Term → List TermKind
  | ⟨kind, args, options, _⟩ => kind :: (argKinds args ++ optionKinds options)

def argKinds : List Term → List TermKind
  | [] => []
  | arg :: rest => kinds arg ++ argKinds rest

def optionKinds : List (String × Term) → List TermKind
  | [] => []
  | (_, option) :: rest => kinds option ++ optionKinds rest

end

mutual

def display : Term → String
  | ⟨kind, args, options, value⟩ =>
    if kind = .datum then (value.getD .null).display
    else kind.name ++ "(" ++ ", ".intercalate (displayArgs args ++ displayOptions options) ++ ")"

def displayArgs : List Term → List String
  | [] => []
  | arg :: rest => display arg :: displayArgs rest

def displayOptions : List (String × Term) → List String
  | [] => []
  | (name, option) :: rest => (name ++ "=" ++ display option) :: displayOptions rest

end

mutual

/-- Equality of terms, with numbers compared numerically. -/
def equals : Term → Term → Bool
  | ⟨kind, args, options, value⟩, ⟨kind', args', options', value'⟩ =>
    kind == kind' && argsEqual args args' && optionsEqual options options' &&
      (match value, value' with
        | none, none => true
        | some d, some d' => d.equals d'
        | _, _ => false)

def argsEqual : List Term → List Term → Bool
  | [], [] => true
  | a :: as, b :: bs => equals a b && argsEqual as bs
  | _, _ => false

def optionsEqual : List (String × Term) → List (String × Term) → Bool
  | [], [] => true
  | (m, a) :: as, (n, b) :: bs => m == n && equals a b && optionsEqual as bs
  | _, _ => false

end

end Term

end DocumentQuery
