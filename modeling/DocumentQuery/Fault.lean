import DocumentQuery.Datum.Reading
import DocumentQuery.Term.Kind
import DocumentQuery.Url.Basic
import DocumentQuery.Wire.Message

/-!
# Faults

Everything that can go wrong is a fault of one of four sorts: a query that
cannot be built, a connection that does not carry it, a server that rejects
it, or an answer that is not what was asked for.  Each sort lists its causes,
and the wording of a cause is kept apart from the place where it arises.
-/

namespace DocumentQuery

/-- What a name can be the name of. -/
inductive Entity where
  | database
  | table
  deriving DecidableEq, Repr

def Entity.name : Entity → String
  | .database => "database"
  | .table => "table"

/-- Why a query cannot be built or a setting cannot be changed. -/
inductive BuildFault where
  | boundTwice
  | escapedVariable
  | missingScope (index : Nat)
  | missingBody
  | notFinite (value : Datum)
  | notAnOperator (kind : TermKind)
  | wrongArity (kind : TermKind) (given : Nat)
  /-- A builder itself gives an operator a number of operands that it does not take. -/
  | brokenArity (kind : TermKind) (given : Nat)
  | unknownBinding (name : String)
  | duplicateBinding (name : String)
  | noFields (operation : String)
  | emptyField (operation : String)
  | noKeys
  | emptyKey
  | emptyName (entity : Entity)
  | invalidName (entity : Entity) (name : String)
  | emptyPrimaryKey (table : String)
  | notDatabase (operation : String)
  | emptyIndex
  | boundCount (given : Nat)
  | notRepresentable (reason : String)
  | unknownSetting (name : String)
  | settingType (name : String) (expected : String) (given : String)
  | unknownDurability (given : String)
  | tooManyRows (limit : Nat)
  | other (text : String)
  deriving Repr

/-- Why a connection does not carry a query. -/
inductive ConnectionFault where
  | sessionClosed
  | fetchAbandoned (token : Token)
  | frameTooLong (length limit : Nat)
  | bytesLeft
  | keyTooLong
  | closedInHandshake
  | replyTooLong
  | replyNotText
  | handshakeRejected (reply : String)
  | alreadyWaiting (token : Token)
  | dropped (token : Token)
  | invalidUrl (url : String) (cause : UrlFault)
  | unsupportedScheme (scheme : String)
  | missingHost (url : String)
  | other (text : String)
  deriving Repr

/-- Why an answer is not what was asked for. -/
inductive DecodeFault where
  | malformed
  | wrongToken (given expected : Token)
  | unexpectedValue
  | noValue
  | manyValues
  | mismatch (cause : Mismatch)
  | notSummary (given : String)
  | notCount (field : String) (given : Datum)
  | notArray (field : String) (given : String)
  | manyRows (count : Nat) (counter : String)
  | other (text : String)
  deriving Repr

/-- What can go wrong with a query. -/
inductive Fault where
  | build (cause : BuildFault)
  | connection (cause : ConnectionFault)
  | query (failure : Failure)
  | decode (cause : DecodeFault)
  deriving Repr

def BuildFault.message : BuildFault → String
  | .boundTwice => "variable bound twice in the same function"
  | .escapedVariable => "Variable used outside of the function that introduced it"
  | .missingScope index => "missing bind scope: " ++ toString index
  | .missingBody => "Function without a body"
  | .notFinite value => "Non-finite number cannot be sent to the server: " ++ value.display
  | .notAnOperator kind => kind.name ++ " cannot be built as a plain operator"
  | .wrongArity kind given =>
    kind.name ++ " expects " ++ kind.arity.display ++ " arguments, got " ++ toString given
  | .brokenArity kind given => kind.name ++ " built with " ++ toString given ++ " operands"
  | .unknownBinding name => "unknown let binding '" ++ name ++ "'"
  | .duplicateBinding name => "duplicate let binding '" ++ name ++ "'"
  | .noFields operation => operation ++ " requires at least one field"
  | .emptyField operation => operation ++ " field names must not be empty"
  | .noKeys => "order_by requires at least one key"
  | .emptyKey => "order_by field names must not be empty"
  | .emptyName entity => entity.name ++ " name must not be empty"
  | .invalidName entity name =>
    "invalid " ++ entity.name ++ " name '" ++ name ++
      "': only letters, digits and '_' are allowed"
  | .emptyPrimaryKey table => "primary key of table '" ++ table ++ "' must not be empty"
  | .notDatabase operation => operation ++ " must be called on a database reference"
  | .emptyIndex => "between index must not be empty"
  | .boundCount given => "between expects one or two bounds, got " ++ toString given
  | .notRepresentable reason => "value cannot be used in a query: " ++ reason
  | .unknownSetting name => "Missing setting for '" ++ name ++ "'"
  | .settingType name expected given =>
    "Setting '" ++ name ++ "' expects a " ++ expected ++ ", got " ++ given
  | .unknownDurability given =>
    "Invalid durability '" ++ given ++ "', expected 'hard' or 'soft'"
  | .tooManyRows limit => "Max batch rows cannot be greater than " ++ toString limit
  | .other text => text

def ConnectionFault.message : ConnectionFault → String
  | .sessionClosed => "session is closed"
  | .fetchAbandoned token =>
    "Fetch for token " ++ toString token ++ " was cancelled before its reply arrived"
  | .frameTooLong length limit =>
    "Frame of " ++ toString length ++ " bytes exceeds maximum of " ++ toString limit
  | .bytesLeft => "bytes remaining on stream"
  | .keyTooLong => "Auth key too long"
  | .closedInHandshake => "Connection closed during handshake: unexpected end of file"
  | .replyTooLong => "Handshake reply too long"
  | .replyNotText => "Handshake reply is not valid utf8"
  | .handshakeRejected reply => "Server rejected handshake: " ++ reply
  | .alreadyWaiting token => "Request with token " ++ toString token ++ " already in flight"
  | .dropped token => "Connection dropped before response for token " ++ toString token
  | .invalidUrl url cause => "Invalid connection url '" ++ url ++ "': " ++ cause.message
  | .unsupportedScheme scheme => "Unsupported scheme '" ++ scheme ++ "', expected 'docql'"
  | .missingHost url => "Missing host in '" ++ url ++ "'"
  | .other text => text

def DecodeFault.message : DecodeFault → String
  | .malformed => "Malformed response"
  | .wrongToken given expected =>
    "Response token " ++ toString given ++ " does not match request token " ++ toString expected
  | .unexpectedValue => "Unexpected single value in response to a continuation"
  | .noValue => "Expected one value, result was empty"
  | .manyValues => "Expected one value, result had more than one"
  | .mismatch cause => "Failed to deserialize datum: " ++ cause.message
  | .notSummary given => "write result must be an object, got " ++ given
  | .notCount field given =>
    "write result field '" ++ field ++ "' must be a count, got " ++ given.display
  | .notArray field given => field ++ " must be an array, got " ++ given
  | .manyRows count counter =>
    "point write reported " ++ toString count ++ " " ++ counter ++
      " rows, expected at most one"
  | .other text => text

/-- A fault in words, its sort first. -/
def Fault.message : Fault → String
  | .build cause => "build error: " ++ cause.message
  | .connection cause => "connection error: " ++ cause.message
  | .query failure => "query error: " ++ failure.display
  | .decode cause => "decode error: " ++ cause.message

/-- A datum read as a value of a type. -/
def Datum.readAs {α : Type} (read : Reader α) (d : Datum) : Except DecodeFault α :=
  (read d).mapError .mismatch

end DocumentQuery
