import DocumentQuery.Proofs.DocumentReading
import DocumentQuery.Proofs.WordRange
import DocumentQuery.Wire.Message

/-!
# Reading tagged messages

A message is taken in as a document, and its token, its tag and its other
members are then looked up by name.  A message that was written has each of
them once.
-/

namespace DocumentQuery

namespace Json

variable {name : String} {value : Json} {members : List (Option String × Json)}

theorem membersHeight_le_iff {depth : Nat} :
    membersHeight members ≤ depth ↔
      ∀ member ∈ members, member.2.height ≤ depth := by
  induction members with
  | nil => simp [membersHeight]
  | cons member members ih =>
      rw [membersHeight, max_le_iff, ih, List.forall_mem_cons]

theorem membersProper_iff :
    MembersProper members ↔ ∀ member ∈ members, member.2.IsProper := by
  induction members with
  | nil => simp [MembersProper]
  | cons member members ih => rw [MembersProper, ih, List.forall_mem_cons]

theorem member?_cons_self (habsent : ∀ member ∈ members, member.1 ≠ some name) :
    member? name ((some name, value) :: members) = some (some value) := by
  have hnone : members.filter (fun member => decide (member.1 = some name)) = [] :=
    List.filter_eq_nil_iff.2 fun member hmember => by
      simpa using habsent member hmember
  rw [member?, List.filter_cons_of_pos (by simp), hnone]

theorem member?_cons_of_ne {other : Option String} (hother : other ≠ some name) :
    member? name ((other, value) :: members) = member? name members := by
  rw [member?, List.filter_cons_of_neg (by simpa using hother)]
  rfl

end Json

namespace TaggedMessage

/-- The members of a message in its document. -/
def written (token : Token) (tag : String) (members : List (String × Json)) :
    List (Option String × Json) :=
  (some "token", .ofNat token.toNat) :: (some "type", .ofText tag) ::
    members.map fun (name, value) => (some name, value)

theorem toJson_eq (token : Token) (tag : String) (members : List (String × Json)) :
    toJson token tag members = .object (written token tag members) :=
  rfl

theorem isProper_toJson (token : Token) (tag : String)
    {members : List (String × Json)}
    (hmembers : ∀ member ∈ members, member.2.IsProper) :
    (toJson token tag members).IsProper := by
  have hall : Json.MembersProper (written token tag members) := by
    rw [Json.membersProper_iff, written, List.forall_mem_cons,
      List.forall_mem_cons, List.forall_mem_map]
    exact ⟨(Option.some_ne_none []).symm, trivial, hmembers⟩
  exact hall

theorem height_of_mem {token : Token} {tag : String}
    {members : List (String × Json)} {depth : Nat}
    (hdepth : (toJson token tag members).height ≤ depth) :
    ∀ member ∈ members, member.2.height ≤ depth - 1 := by
  rw [toJson_eq, Json.height] at hdepth
  have hheights := Json.membersHeight_le_iff.1 (Nat.le_sub_of_add_le hdepth)
  rw [written, List.forall_mem_cons, List.forall_mem_cons,
    List.forall_mem_map] at hheights
  exact hheights.2.2

theorem isSound_token (token : Token) (depth : Nat) :
    (Json.ofNat token.toNat).isSound depth := by
  have hword := Numeral.isSome_toNumber?_word token.toNat_lt
  cases depth <;> exact hword

/-- A written message is recognized by its token and its tag. -/
theorem ofJson?_toJson (token : Token) {tags : List String} {tag : String}
    {place : Nat} (htag : tags.findIdx? (· == tag) = some place)
    {members : List (String × Json)}
    (hnames : ∀ member ∈ members, member.1 ≠ "token" ∧ member.1 ≠ "type")
    (hsound : ∀ member ∈ members, member.2.isSound (Json.maxDepth - 1)) :
    ofJson? tags (toJson token tag members) =
      some ⟨token, place, written token tag members⟩ := by
  have hwhole : (Json.object (written token tag members)).isSound Json.maxDepth := by
    have hmembers : ∀ member ∈ written token tag members,
        member.1.isSome && member.2.isSound (Json.maxDepth - 1) := by
      rw [written, List.forall_mem_cons, List.forall_mem_cons, List.forall_mem_map]
      exact ⟨isSound_token token _, rfl, hsound⟩
    exact List.all_eq_true.2 hmembers
  have htoken : Json.member? "token" (written token tag members) =
      some (some (.ofNat token.toNat)) := by
    apply Json.member?_cons_self
    rw [List.forall_mem_cons, List.forall_mem_map]
    exact ⟨by simp, fun member hmember => by simpa using (hnames member hmember).1⟩
  have htype : Json.member? "type" (written token tag members) =
      some (some (.ofText tag)) := by
    rw [written, Json.member?_cons_of_ne (by simp)]
    apply Json.member?_cons_self
    rw [List.forall_mem_map]
    exact fun member hmember => by simpa using (hnames member hmember).2
  have hword : (Json.ofNat token.toNat).asWord? = some token.toNat := by
    have hlt : token.toNat < 0x10000000000000000 := token.toNat_lt
    simp [Json.ofNat, Json.asWord?, Numeral.toWord?, Numeral.isWhole, hlt]
  have hplace : tagIndex? tags (.ofText tag) = some place := htag
  rw [toJson_eq, ofJson?]
  simp only [hwhole, htoken, htype, hword, hplace, if_true,
    Option.bind_eq_bind, Option.bind_some, UInt64.ofNat_toNat]
  rfl

end TaggedMessage

end DocumentQuery
