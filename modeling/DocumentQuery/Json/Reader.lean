import DocumentQuery.Json.Token

/-!
# Reading and writing JSON text

Reading a document is a walk over its tokens.  The state of the walk is what
may come next, together with the containers still open around it, innermost
first; one token takes one state to the next, and the text is a document when
the walk ends after one complete value.
-/

namespace DocumentQuery.Json

/-- A container that is still open: what it holds so far, latest first, and for
an object the name whose value is being read. -/
inductive Frame where
  | array (items : List Json)
  | object (members : List (Option String × Json)) (name : Option String)
  deriving Repr

/-- What may come next, inside the open containers. -/
inductive ReadState where
  | atValue (frames : List Frame)
  /-- The first item of an array, or its end. -/
  | atFirstItem (frames : List Frame)
  /-- The first name of an object, or its end. -/
  | atFirstName (frames : List Frame)
  | atName (members : List (Option String × Json)) (frames : List Frame)
  | atColon (members : List (Option String × Json)) (name : Option String) (frames : List Frame)
  /-- What follows a complete value. -/
  | complete (value : Json) (frames : List Frame)
  deriving Repr

namespace ReadState

/-- The effect of a token that starts a value. -/
def stepValue (frames : List Frame) : Token → Option ReadState
  | .openArray => some (.atFirstItem frames)
  | .openObject => some (.atFirstName frames)
  | .null => some (.complete .null frames)
  | .bool value => some (.complete (.bool value) frames)
  | .number value => some (.complete (.number value) frames)
  | .string value => some (.complete (.string value) frames)
  | _ => none

/-- The effect of a token that follows a complete value. -/
def stepAfter (value : Json) : List Frame → Token → Option ReadState
  | .array items :: frames, .comma => some (.atValue (.array (value :: items) :: frames))
  | .array items :: frames, .closeArray =>
    some (.complete (.array (value :: items).reverse) frames)
  | .object members name :: frames, .comma => some (.atName ((name, value) :: members) frames)
  | .object members name :: frames, .closeObject =>
    some (.complete (.object ((name, value) :: members).reverse) frames)
  | _, _ => none

def step : ReadState → Token → Option ReadState
  | .atValue frames, token => stepValue frames token
  | .atFirstItem frames, .closeArray => some (.complete (.array []) frames)
  | .atFirstItem frames, token => stepValue (.array [] :: frames) token
  | .atFirstName frames, .closeObject => some (.complete (.object []) frames)
  | .atFirstName frames, .string name => some (.atColon [] name frames)
  | .atFirstName _, _ => none
  | .atName members frames, .string name => some (.atColon members name frames)
  | .atName _ _, _ => none
  | .atColon members name frames, .colon => some (.atValue (.object members name :: frames))
  | .atColon _ _ _, _ => none
  | .complete value frames, token => stepAfter value frames token

/-- The document that has been read, if it is complete. -/
def result? : ReadState → Option Json
  | .complete value [] => some value
  | _ => none

end ReadState

/-- The document that a list of tokens writes. -/
def ofTokens? (tokens : List Token) : Option Json := do
  let state ← tokens.foldlM ReadState.step (.atValue [])
  state.result?

def parse? (text : String) : Option Json := do
  let tokens ← tokens? text.toList
  ofTokens? tokens

mutual

def tokens : Json → List Token
  | .null => [.null]
  | .bool value => [.bool value]
  | .number value => [.number value]
  | .string value => [.string value]
  | .array items => .openArray :: itemTokens items
  | .object members => .openObject :: memberTokens members

/-- The tokens of the items of an array and of its end. -/
def itemTokens : List Json → List Token
  | [] => [.closeArray]
  | item :: rest => tokens item ++ laterItemTokens rest

def laterItemTokens : List Json → List Token
  | [] => [.closeArray]
  | item :: rest => .comma :: (tokens item ++ laterItemTokens rest)

def memberTokens : List (Option String × Json) → List Token
  | [] => [.closeObject]
  | (name, value) :: rest =>
    .string name :: .colon :: (tokens value ++ laterMemberTokens rest)

def laterMemberTokens : List (Option String × Json) → List Token
  | [] => [.closeObject]
  | (name, value) :: rest =>
    .comma :: .string name :: .colon :: (tokens value ++ laterMemberTokens rest)

end

/-- A document as text, without blanks. -/
def write (json : Json) : String := String.ofList (json.tokens.flatMap Token.write)

end DocumentQuery.Json
