import DocumentQuery.Expr.Basic

/-!
# Writes

Combinators that change documents.  Whether the rows of a write are changed
atomically is a matter of the whole query, so no write says it here.
-/

namespace DocumentQuery.Expr

open Build

variable {m : Type → Type} [Monad m]

/-- Inserts a document, or an array of them.  With `upsert`, a document that is
already there is replaced. -/
def insert (e documents : Expr) (upsert : Bool) : BuildT m Expr := do
  let options ← if upsert then do pure [("upsert", ← literal (.bool true))] else pure []
  operatorWith .insert [e, documents] options

/-- Merges into each row what `f` makes of it. -/
def update (e : Expr) (f : Expr → BuildT m Expr) : BuildT m Expr := do
  operator .update [e, ← lambda f]

def updateWith (e document : Expr) : BuildT m Expr := operator .update [e, document]

/-- Replaces each row by what `f` makes of it. -/
def replace (e : Expr) (f : Expr → BuildT m Expr) : BuildT m Expr := do
  operator .replace [e, ← lambda f]

def replaceWith (e document : Expr) : BuildT m Expr := operator .replace [e, document]

def delete (e : Expr) : BuildT m Expr := operator .delete [e]

/-- Runs for each element the write that `f` makes of it. -/
def forEach (e : Expr) (f : Expr → BuildT m Expr) : BuildT m Expr := do
  operator .forEach [e, ← lambda f]

end DocumentQuery.Expr
