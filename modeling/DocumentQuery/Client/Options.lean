import DocumentQuery.Expr.Relation
import DocumentQuery.Session.Settings
import DocumentQuery.Url.Reader

/-!
# Connection options

Where a server is and how to connect to it, given part by part or as a URL of
the form `docql://key@host:port/database`, of which only the host is required.
-/

namespace DocumentQuery

structure ConnectOptions where
  host : String
  port : Nat := 28015
  authKey : Option String := none
  database : String := ({} : Settings).defaultDatabase
  deriving DecidableEq, Repr

namespace ConnectOptions

def scheme : String := "docql"

/-- The database a path names. -/
def databaseOf (path : String) : Except Fault String :=
  match path.toList.dropWhile (· == '/') with
  | [] => .ok ({} : Settings).defaultDatabase
  | cs => do
    let name := String.ofList cs
    (checkName .database name).mapError .build
    return name

def ofUrl (text : String) : Except Fault ConnectOptions := do
  let url ← (Url.parse text).mapError fun cause => .connection (.invalidUrl text cause)
  if url.scheme ≠ scheme then throw (.connection (.unsupportedScheme url.scheme))
  match url.host with
  | none => throw (.connection (.missingHost text))
  | some host =>
    let database ← databaseOf url.path
    return {
      host, database
      port := url.port.getD ({ host } : ConnectOptions).port
      authKey := if url.username.isEmpty then none else some url.username }

def addressUrl (address database : String) : String :=
  scheme ++ "://" ++ address ++ "/" ++ database

/-- The options for an address of the form `host:port`, and a database. -/
def ofAddress (address database : String) : Except Fault ConnectOptions :=
  ofUrl (addressUrl address database)

def address (o : ConnectOptions) : String := o.host ++ ":" ++ toString o.port

/-- The options as text for people, without the key. -/
def display (o : ConnectOptions) : String :=
  "ConnectOptions \x7b host: " ++ Text.quoted o.host ++ ", port: " ++ toString o.port ++
    ", auth_key: " ++ (if o.authKey.isSome then "Some(\"***\")" else "None") ++
    ", database: " ++ Text.quoted o.database ++ " \x7d"

end ConnectOptions

end DocumentQuery
