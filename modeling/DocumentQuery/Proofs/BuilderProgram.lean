import DocumentQuery.Expr.Collection
import DocumentQuery.Expr.Relation
import DocumentQuery.Expr.Scalar
import DocumentQuery.Expr.Write
import Mathlib.Data.Set.Insert

/-!
# Programs that build expressions

A caller gets expressions from the builders only.  It can hand them to further
builders as often as it likes, take their operands and options out again, and
keep some of them in a store of its own, the parameters of a function body
among them, even when the body fails later on.  A program is given together
with the expressions it knows at its start; the bodies of functions are
programs that know the parameters as well.
-/

namespace DocumentQuery

/-- A step of a caller, which has a store of expressions. -/
abbrev Caller (α : Type) := BuildT (StateM (List Expr)) α

namespace Caller

/-- Puts an expression into the store. -/
def keep (e : Expr) : Caller Unit :=
  fun next kept => ((.ok (), next), e :: kept)

/-- All that is in the store. -/
def kept : Caller (List Expr) := fun next kept => ((.ok kept, next), kept)

/-- Goes on with `handler` where `p` fails.  The failed assertion of a builder
is not for a caller to handle. -/
def recover (p : Caller Expr) (handler : BuildFault → Caller Expr) :
    Caller Expr :=
  tryCatch p fun cause =>
    match cause with
    | .brokenArity kind given => Build.fail (.brokenArity kind given)
    | cause => handler cause

end Caller

/-- The failed assertion of a builder, which a caller cannot report on its
own. -/
def BuildFault.IsBroken : BuildFault → Prop
  | .brokenArity _ _ => True
  | _ => False

/-- What a caller can do that knows some expressions. -/
inductive Program : Set Expr → Caller Expr → Prop where
  -- the caller's own steps
  | give : e ∈ known → Program known (pure e)
  | fail : ¬ cause.IsBroken → Program known (Build.fail cause)
  | bind : Program known p → (∀ e, Program (insert e known) (rest e)) →
      Program known (p >>= rest)
  | recover : Program known p → (∀ cause, Program known (handler cause)) →
      Program known (Caller.recover p handler)
  | keep :
      e ∈ known → Program known p → Program known (Caller.keep e >>= fun _ => p)
  | kept : (∀ kept : List Expr, Program (known ∪ {e | e ∈ kept}) (rest kept)) →
      Program known (Caller.kept >>= rest)
  | operand : e ∈ known → x ∈ e.operands → Program known (pure x)
  | option : e ∈ known → x ∈ e.options → Program known (pure x.2)
  -- constants and collections
  | literal : value.Ordered → Program known (Expr.literal value)
  | text : Program known (Expr.text value)
  | null : Program known Expr.null
  | array : (∀ e ∈ items, e ∈ known) → Program known (Expr.array items)
  | object :
      (∀ field ∈ pairs, field.2 ∈ known) → Program known (Expr.object pairs)
  | ofOption : (∀ x ∈ e, x ∈ known) → Program known (Expr.ofOption e)
  | wideInteger : Program known (Expr.wideInteger i)
  | finiteOrNull : Program known (Expr.finiteOrNull n)
  -- any operator
  | tryOperator :
      (∀ e ∈ operands, e ∈ known) → (∀ option ∈ options, option.2 ∈ known) →
      Fields.Sorted options →
      Program known (Expr.tryOperator kind operands options)
  -- scalars
  | eq : a ∈ known → b ∈ known → Program known (Expr.eq a b)
  | ne : a ∈ known → b ∈ known → Program known (Expr.ne a b)
  | lt : a ∈ known → b ∈ known → Program known (Expr.lt a b)
  | le : a ∈ known → b ∈ known → Program known (Expr.le a b)
  | gt : a ∈ known → b ∈ known → Program known (Expr.gt a b)
  | ge : a ∈ known → b ∈ known → Program known (Expr.ge a b)
  | and : a ∈ known → b ∈ known → Program known (Expr.and a b)
  | or : a ∈ known → b ∈ known → Program known (Expr.or a b)
  | add : a ∈ known → b ∈ known → Program known (Expr.add a b)
  | sub : a ∈ known → b ∈ known → Program known (Expr.sub a b)
  | mul : a ∈ known → b ∈ known → Program known (Expr.mul a b)
  | div : a ∈ known → b ∈ known → Program known (Expr.div a b)
  | mod : a ∈ known → b ∈ known → Program known (Expr.mod a b)
  | not : a ∈ known → Program known (Expr.not a)
  | branch :
      a ∈ known → b ∈ known → c ∈ known → Program known (Expr.branch a b c)
  | javascript : Program known (Expr.javascript source)
  | letIn : (∀ binding ∈ bindings, binding.2 ∈ known) →
      (∀ scope : Expr.LetScope, Program
        (known ∪ {x | ∃ binding ∈ scope.bindings, binding.2 = x}) (body scope)) →
      Program known (Expr.letIn bindings body)
  | scopeVariable {scope : Expr.LetScope} :
      (∀ binding ∈ scope.bindings, binding.2 ∈ known) →
      Program known (scope.variable name)
  -- sequences and documents
  | nth : e ∈ known → index ∈ known → Program known (Expr.nth e index)
  | count : e ∈ known → Program known (Expr.count e)
  | limit : e ∈ known → n ∈ known → Program known (Expr.limit e n)
  | skip : e ∈ known → n ∈ known → Program known (Expr.skip e n)
  | slice : e ∈ known → a ∈ known → b ∈ known → Program known (Expr.slice e a b)
  | append : e ∈ known → value ∈ known → Program known (Expr.append e value)
  | distinct : e ∈ known → Program known (Expr.distinct e)
  | union : e ∈ known → other ∈ known → Program known (Expr.union e other)
  | merge : e ∈ known → other ∈ known → Program known (Expr.merge e other)
  | map : e ∈ known → (∀ x, Program (insert x known) (f x)) →
      Program known (Expr.map e f)
  | concatMap : e ∈ known → (∀ x, Program (insert x known) (f x)) →
      Program known (Expr.concatMap e f)
  | filter : e ∈ known → (∀ x, Program (insert x known) (f x)) →
      Program known (Expr.filter e f)
  | filterBy :
      e ∈ known → example_ ∈ known → Program known (Expr.filterBy e example_)
  | reduce : e ∈ known → base ∈ known →
      (∀ x y, Program (insert y (insert x known)) (g x y)) →
      Program known (Expr.reduce e base g)
  | groupBy : e ∈ known → Program known (Expr.groupBy e names reduction)
  | groupedMapReduce : e ∈ known → base ∈ known →
      (∀ x, Program (insert x known) (group x)) →
      (∀ x, Program (insert x known) (f x)) →
      (∀ x y, Program (insert y (insert x known)) (g x y)) →
      Program known (Expr.groupedMapReduce e group f base g)
  | orderBy : e ∈ known → Program known (Expr.orderBy e keys)
  | getField : e ∈ known → Program known (Expr.getField e name)
  | contains : e ∈ known → Program known (Expr.contains e names)
  | pluck : e ∈ known → Program known (Expr.pluck e names)
  | without : e ∈ known → Program known (Expr.without e names)
  | pick : e ∈ known → Program known (Expr.pick e names)
  -- databases, tables and joins
  | database : Program known (Expr.database name)
  | table : Program known (Expr.table name)
  | createDatabase : Program known (Expr.createDatabase name)
  | dropDatabase : Program known (Expr.dropDatabase name)
  | listDatabases : Program known Expr.listDatabases
  | createTable : Program known (Expr.createTable spec)
  | dropTable : Program known (Expr.dropTable name)
  | listTables : Program known Expr.listTables
  | tableIn : db ∈ known → Program known (Expr.tableIn db name)
  | createTableIn : db ∈ known → Program known (Expr.createTableIn db spec)
  | dropTableIn : db ∈ known → Program known (Expr.dropTableIn db name)
  | listTablesIn : db ∈ known → Program known (Expr.listTablesIn db)
  | get : e ∈ known → key ∈ known → Program known (Expr.get e key)
  | between : e ∈ known → (∀ bound ∈ bounds, bound ∈ known) →
      Program known (Expr.between e index bounds)
  | betweenKeys : e ∈ known → (∀ bound ∈ bounds, bound ∈ known) →
      Program known (Expr.betweenKeys e bounds)
  | innerJoin : e ∈ known → other ∈ known →
      (∀ x y, Program (insert y (insert x known)) (g x y)) →
      Program known (Expr.innerJoin e other g)
  | outerJoin : e ∈ known → other ∈ known →
      (∀ x y, Program (insert y (insert x known)) (g x y)) →
      Program known (Expr.outerJoin e other g)
  | eqJoin :
      e ∈ known → other ∈ known →
      Program known (Expr.eqJoin e field other index)
  | zip : e ∈ known → Program known (Expr.zip e)
  -- writes
  | insert :
      e ∈ known → documents ∈ known →
      Program known (Expr.insert e documents upsert)
  | update : e ∈ known → (∀ x, Program (insert x known) (f x)) →
      Program known (Expr.update e f)
  | updateWith :
      e ∈ known → document ∈ known → Program known (Expr.updateWith e document)
  | replace : e ∈ known → (∀ x, Program (insert x known) (f x)) →
      Program known (Expr.replace e f)
  | replaceWith :
      e ∈ known → document ∈ known → Program known (Expr.replaceWith e document)
  | delete : e ∈ known → Program known (Expr.delete e)
  | forEach : e ∈ known → (∀ x, Program (insert x known) (f x)) →
      Program known (Expr.forEach e f)

/-- How a step of a caller ends that starts with nothing built. -/
def Caller.start {α : Type} (p : Caller α) : Except BuildFault α :=
  (p 0 []).1.1

/-- An expression that some program builds from nothing. -/
def Expr.Obtainable (e : Expr) : Prop :=
  ∃ p : Caller Expr, Program ∅ p ∧ p.start = .ok e

end DocumentQuery
