import DocumentQuery.Expr.Literal

/-!
# Sequences and documents

Combinators that take a sequence or a document apart, reorder it, or fold it.
Those that name fields insist on at least one field and on names that are not
empty.
-/

namespace DocumentQuery.Expr

open Build

variable {m : Type → Type} [Monad m]

def nth (e index : Expr) : BuildT m Expr := operator .nth [e, index]

def count (e : Expr) : BuildT m Expr := operator .count [e]

def limit (e n : Expr) : BuildT m Expr := operator .limit [e, n]

def skip (e n : Expr) : BuildT m Expr := operator .skip [e, n]

/-- The elements from `start` up to, not including, `stop`. -/
def slice (e start stop : Expr) : BuildT m Expr := operator .slice [e, start, stop]

def append (e value : Expr) : BuildT m Expr := operator .append [e, value]

def distinct (e : Expr) : BuildT m Expr := operator .distinct [e]

def union (e other : Expr) : BuildT m Expr := operator .union [e, other]

def merge (e other : Expr) : BuildT m Expr := operator .merge [e, other]

def map (e : Expr) (f : Expr → BuildT m Expr) : BuildT m Expr := do
  operator .map [e, ← lambda f]

/-- The sequences that `f` makes of the elements, one after the other. -/
def concatMap (e : Expr) (f : Expr → BuildT m Expr) : BuildT m Expr := do
  operator .concatMap [e, ← lambda f]

def filter (e : Expr) (predicate : Expr → BuildT m Expr) : BuildT m Expr := do
  operator .filter [e, ← lambda predicate]

/-- The elements whose fields equal those of an example. -/
def filterBy (e pattern : Expr) : BuildT m Expr := operator .filter [e, pattern]

def reduce (e base : Expr) (f : Expr → Expr → BuildT m Expr) : BuildT m Expr := do
  operator .reduce [e, base, ← lambda₂ f]

/-- What is made of each group. -/
inductive Reduction where
  | count
  | sum (field : String)
  | avg (field : String)
  deriving DecidableEq, Repr

/-- The value that describes a reduction to the server. -/
def Reduction.toDatum : Reduction → Datum
  | .count => .object [("COUNT", .bool true)]
  | .sum field => .object [("SUM", .string field)]
  | .avg field => .object [("AVG", .string field)]

/-- Field names, of which there must be one at least and none empty. -/
def checkFields (operation : String) (names : List String) : BuildT m Unit :=
  if names.isEmpty then fail (.noFields operation)
  else if names.any String.isEmpty then fail (.emptyField operation)
  else return ()

/-- The groups that agree on the fields, each reduced. -/
def groupBy (e : Expr) (names : List String) (reduction : Reduction) : BuildT m Expr := do
  checkFields "group_by" names
  let names ← names.mapM text
  operator .groupBy [e, ← array names, ← literal reduction.toDatum]

/-- The groups that agree on what `group` makes of the elements, each mapped and
then folded from `base` on. -/
def groupedMapReduce (e : Expr) (group map : Expr → BuildT m Expr) (base : Expr)
    (reduce : Expr → Expr → BuildT m Expr) : BuildT m Expr := do
  operator .groupedMapReduce [e, ← lambda group, ← lambda map, base, ← lambda₂ reduce]

/-- A field to sort by, and the direction. -/
inductive SortKey where
  | ascending (field : String)
  | descending (field : String)
  deriving DecidableEq, Repr

namespace SortKey

def field : SortKey → String
  | .ascending field | .descending field => field

def toExpr : SortKey → BuildT m Expr
  | .ascending field => do operator .asc [← text field]
  | .descending field => do operator .desc [← text field]

end SortKey

/-- The elements sorted by the keys, the first one counting most. -/
def orderBy (e : Expr) (keys : List SortKey) : BuildT m Expr :=
  if keys.isEmpty then fail .noKeys
  else if keys.any fun key => key.field.isEmpty then fail .emptyKey
  else do operator .orderBy (e :: (← keys.mapM SortKey.toExpr))

def getField (e : Expr) (name : String) : BuildT m Expr := do
  operator .getField [e, ← text name]

/-- An operator on some fields of the operand. -/
def onFields (kind : TermKind) (operation : String) (e : Expr) (names : List String) :
    BuildT m Expr := do
  checkFields operation names
  operator kind (e :: (← names.mapM text))

def contains : Expr → List String → BuildT m Expr := onFields .contains "contains"

def pluck : Expr → List String → BuildT m Expr := onFields .pluck "pluck"

def without : Expr → List String → BuildT m Expr := onFields .without "without"

/-- Only the fields of one object, which must have them. -/
def pick : Expr → List String → BuildT m Expr := onFields .pick "pick"

end DocumentQuery.Expr
