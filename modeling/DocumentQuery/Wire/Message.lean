import DocumentQuery.Wire.Failure

/-!
# Tagged messages

Requests and responses are objects that carry a token, which pairs an answer
with its request, and a tag, which says what the other members mean.  The tag
may stand anywhere, so the whole object is taken in before the tag is looked
at, and members the tag does not ask for are ignored.
-/

namespace DocumentQuery

/-- The number that pairs a response with its request. -/
abbrev Token := UInt64

/-- A message before its tag is interpreted. -/
structure TaggedMessage where
  token : Token
  /-- The place of the tag among the known ones. -/
  tag : Nat
  /-- All members, the token and the tag included. -/
  members : List (Option String × Json)

namespace TaggedMessage

/-- The place of a tag among the known ones: given by name, or as a number. -/
def tagIndex? (tags : List String) : Json → Option Nat
  | .string value => value.bind fun name => tags.findIdx? (· == name)
  | .number value => value.toWord?.filter (· < tags.length)
  | _ => none

/-- A sound object with one token and one known tag. -/
def ofJson? (tags : List String) (json : Json) : Option TaggedMessage :=
  match json with
  | .object members =>
    if json.isSound Json.maxDepth then do
      let token ← (← Json.member? "token" members).bind Json.asWord?
      let tag ← (← Json.member? "type" members).bind (tagIndex? tags)
      return ⟨.ofNat token, tag, members⟩
    else none
  | _ => none

/-- A member that must be there, once. -/
def required? (m : TaggedMessage) (name : String) : Option Json :=
  (Json.member? name m.members).bind id

/-- The members of a message, token and tag first. -/
def toJson (token : Token) (tag : String) (members : List (String × Json)) : Json :=
  .ofMembers (("token", .ofNat token.toNat) :: ("type", .ofText tag) :: members)

end TaggedMessage

end DocumentQuery
