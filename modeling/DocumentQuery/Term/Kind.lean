/-!
# Kinds of terms

Every term names what the server is to do with its arguments.  A kind fixes
how many arguments a term takes and whether it reads stored data, changes
documents or changes the catalog.
-/

namespace DocumentQuery

/-- What a term does. -/
inductive TermKind where
  | datum | makeArray | makeObject | var | func | funcall | javascript | branch | db
  | table | get | between | eq | ne | lt | le | gt | ge | not | and | or | add | sub
  | mul | div | mod | append | slice | skip | limit | nth | getField | contains | pluck
  | without | pick | merge | reduce | map | filter | concatMap | orderBy | asc | desc
  | distinct | count | union | innerJoin | outerJoin | eqJoin | zip | groupedMapReduce
  | groupBy | insert | update | replace | delete | forEach | dbCreate | dbDrop | dbList
  | tableCreate | tableDrop | tableList
  deriving DecidableEq, Repr, Ord, Inhabited

namespace TermKind

def all : List TermKind :=
  [.datum, .makeArray, .makeObject, .var, .func, .funcall, .javascript, .branch, .db,
   .table, .get, .between, .eq, .ne, .lt, .le, .gt, .ge, .not, .and, .or, .add, .sub, .mul,
   .div, .mod, .append, .slice, .skip, .limit, .nth, .getField, .contains, .pluck,
   .without, .pick, .merge, .reduce, .map, .filter, .concatMap, .orderBy, .asc, .desc,
   .distinct, .count, .union, .innerJoin, .outerJoin, .eqJoin, .zip, .groupedMapReduce,
   .groupBy, .insert, .update, .replace, .delete, .forEach, .dbCreate, .dbDrop, .dbList,
   .tableCreate, .tableDrop, .tableList]

def name : TermKind → String
  | .datum => "DATUM"
  | .makeArray => "MAKE_ARRAY"
  | .makeObject => "MAKE_OBJECT"
  | .var => "VAR"
  | .func => "FUNC"
  | .funcall => "FUNCALL"
  | .javascript => "JAVASCRIPT"
  | .branch => "BRANCH"
  | .db => "DB"
  | .table => "TABLE"
  | .get => "GET"
  | .between => "BETWEEN"
  | .eq => "EQ"
  | .ne => "NE"
  | .lt => "LT"
  | .le => "LE"
  | .gt => "GT"
  | .ge => "GE"
  | .not => "NOT"
  | .and => "AND"
  | .or => "OR"
  | .add => "ADD"
  | .sub => "SUB"
  | .mul => "MUL"
  | .div => "DIV"
  | .mod => "MOD"
  | .append => "APPEND"
  | .slice => "SLICE"
  | .skip => "SKIP"
  | .limit => "LIMIT"
  | .nth => "NTH"
  | .getField => "GET_FIELD"
  | .contains => "CONTAINS"
  | .pluck => "PLUCK"
  | .without => "WITHOUT"
  | .pick => "PICK"
  | .merge => "MERGE"
  | .reduce => "REDUCE"
  | .map => "MAP"
  | .filter => "FILTER"
  | .concatMap => "CONCAT_MAP"
  | .orderBy => "ORDER_BY"
  | .asc => "ASC"
  | .desc => "DESC"
  | .distinct => "DISTINCT"
  | .count => "COUNT"
  | .union => "UNION"
  | .innerJoin => "INNER_JOIN"
  | .outerJoin => "OUTER_JOIN"
  | .eqJoin => "EQ_JOIN"
  | .zip => "ZIP"
  | .groupedMapReduce => "GROUPED_MAP_REDUCE"
  | .groupBy => "GROUP_BY"
  | .insert => "INSERT"
  | .update => "UPDATE"
  | .replace => "REPLACE"
  | .delete => "DELETE"
  | .forEach => "FOR_EACH"
  | .dbCreate => "DB_CREATE"
  | .dbDrop => "DB_DROP"
  | .dbList => "DB_LIST"
  | .tableCreate => "TABLE_CREATE"
  | .tableDrop => "TABLE_DROP"
  | .tableList => "TABLE_LIST"

def ofName? (name : String) : Option TermKind := all.find? fun kind => kind.name == name

end TermKind

/-- How many arguments a term takes. -/
structure Arity where
  least : Nat
  most : Option Nat
  deriving DecidableEq, Repr

namespace Arity

def exactly (n : Nat) : Arity := ⟨n, some n⟩

def between (least most : Nat) : Arity := ⟨least, some most⟩

def atLeast (n : Nat) : Arity := ⟨n, none⟩

def accepts (arity : Arity) (n : Nat) : Bool :=
  decide (arity.least ≤ n) && (match arity.most with
    | none => true
    | some most => decide (n ≤ most))

def display (arity : Arity) : String :=
  match arity.most with
  | none => "at least " ++ toString arity.least
  | some most =>
    if most = arity.least then toString arity.least
    else toString arity.least ++ " to " ++ toString most

end Arity

namespace TermKind

/-- How many arguments a term of the kind takes. -/
def arity : TermKind → Arity
  | .datum | .dbList => .exactly 0
  | .makeArray | .makeObject => .atLeast 0
  | .var | .javascript | .db | .not | .distinct | .count | .zip | .delete | .dbCreate
  | .dbDrop | .asc | .desc => .exactly 1
  | .funcall => .atLeast 1
  | .table | .tableCreate | .tableDrop => .between 1 2
  | .tableList => .between 0 1
  | .between => .between 2 3
  | .func | .get | .eq | .ne | .lt | .le | .gt | .ge | .and | .or | .add | .sub | .mul | .div
  | .mod | .append | .skip | .limit | .nth | .getField | .merge | .map | .filter | .concatMap
  | .union | .insert | .update | .replace | .forEach => .exactly 2
  | .contains | .pluck | .without | .pick | .orderBy => .atLeast 2
  | .branch | .slice | .reduce | .innerJoin | .outerJoin | .groupBy => .exactly 3
  | .eqJoin => .exactly 4
  | .groupedMapReduce => .exactly 5

/-- Whether a term of the kind names stored data the server reads. -/
def isRelationSource : TermKind → Bool
  | .db | .table | .get | .between => true
  | _ => false

/-- Whether a term of the kind changes stored documents. -/
def isWrite : TermKind → Bool
  | .insert | .update | .replace | .delete | .forEach => true
  | _ => false

/-- Whether a term of the kind changes the catalog of databases and tables. -/
def isAdmin : TermKind → Bool
  | .dbCreate | .dbDrop | .tableCreate | .tableDrop => true
  | _ => false

end TermKind

end DocumentQuery
