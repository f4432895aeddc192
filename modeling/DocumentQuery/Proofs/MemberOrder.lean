import DocumentQuery.Proofs.ResponseText
import Mathlib.Logic.Relation

/-!
# The members of a response

A response is taken in as a whole before its tag is known, and everything that it
means is then looked up in it by name.  So its members may stand in any order, and
members that nobody looks up may come and go, as long as they can be taken in.  A
name that is looked up, however, must not be there twice.
-/

namespace DocumentQuery

namespace Json

variable {name : String} {names : List String} {members members' : List (Option String × Json)}

theorem member?_perm (h : members.Perm members') (name : String) :
    member? name members = member? name members' := by
  have hfound := h.filter fun member => decide (member.1 = some name)
  unfold member?
  generalize members.filter (fun member => decide (member.1 = some name)) = found
    at hfound ⊢
  rcases found with _ | ⟨first, _ | ⟨second, rest⟩⟩
  · rw [hfound.nil_eq]
  · rw [List.singleton_perm.1 hfound]
  · have hlength := hfound.length_eq
    generalize members'.filter (fun member => decide (member.1 = some name)) = found'
      at hlength ⊢
    rcases found' with _ | ⟨first', _ | ⟨second', rest'⟩⟩
    · simp at hlength
    · simp at hlength
    · rfl

theorem member?_eq_none_iff :
    member? name members = none ↔
      1 < members.countP fun member => member.1 = some name := by
  rw [member?, List.countP_eq_length_filter]
  generalize members.filter (fun member => decide (member.1 = some name)) = found
  rcases found with _ | ⟨first, _ | ⟨second, rest⟩⟩ <;> simp

theorem record?_congr
    (hnamed : (members.all fun member => member.1.isSome) =
      members'.all fun member => member.1.isSome)
    (hlookup : ∀ name ∈ names, member? name members = member? name members') :
    (object members).record? names = (object members').record? names := by
  have hparts : names.mapM (fun name => member? name members) =
      names.mapM fun name => member? name members' := by
    induction names with
    | nil => rfl
    | cons name rest ih =>
        rw [List.forall_mem_cons] at hlookup
        rw [List.mapM_cons, List.mapM_cons, hlookup.1, ih hlookup.2]
  rw [record?, record?, hnamed, hparts]

theorem record?_eq_none (hname : name ∈ names) (hrepeated : member? name members = none) :
    (object members).record? names = none := by
  have hparts : names.mapM (fun name => member? name members) = none := by
    induction names with
    | nil => cases hname
    | cons other rest ih =>
        rcases List.mem_cons.1 hname with rfl | hname
        · simp [List.mapM_cons, hrepeated]
        · simp [List.mapM_cons, ih hname]
  rw [record?, hparts, ite_self]

theorem isSound_members_iff :
    (object members).isSound maxDepth ↔
      ∀ member ∈ members, member.1.isSome ∧ member.2.isSound (maxDepth - 1) := by
  rw [show maxDepth = maxDepth - 1 + 1 from rfl, isSound, List.all_eq_true]
  simp only [Bool.and_eq_true]
  rfl

theorem isSound_members_perm (h : members.Perm members') :
    (object members).isSound maxDepth = (object members').isSound maxDepth := by
  rw [Bool.eq_iff_iff, isSound_members_iff, isSound_members_iff]
  exact forall_congr' fun member => by rw [h.mem_iff]

theorem isSound_members_cons {value : Json} (hvalue : value.isSound (maxDepth - 1)) :
    (object ((some name, value) :: members)).isSound maxDepth =
      (object members).isSound maxDepth := by
  rw [Bool.eq_iff_iff, isSound_members_iff, isSound_members_iff, List.forall_mem_cons]
  exact and_iff_right ⟨rfl, hvalue⟩

end Json

theorem Failure.ofJson?_congr (framing : Framing) (depth : ℕ)
    {members members' : List (Option String × Json)}
    (hnamed : (members.all fun member => member.1.isSome) =
      members'.all fun member => member.1.isSome)
    (hlookup : ∀ name ∈ ["class", "message", "backtrace"],
      Json.member? name members = Json.member? name members') :
    ofJson? framing depth (.object members) = ofJson? framing depth (.object members') := by
  cases depth with
  | zero => rfl
  | succ depth => rw [ofJson?, ofJson?, Json.record?_congr hnamed hlookup]

theorem Failure.ofJson?_eq_none {framing : Framing} {depth : ℕ} {name : String}
    {members : List (Option String × Json)}
    (hname : name ∈ ["class", "message", "backtrace"])
    (hrepeated : Json.member? name members = none) :
    ofJson? framing depth (.object members) = none := by
  cases depth with
  | zero => rfl
  | succ depth => rw [ofJson?, Json.record?_eq_none hname hrepeated]; rfl

namespace Payload

/-- The names that the payload at a place among the tags looks up. -/
def ownNames : ℕ → List String
  | 0 => ["value"]
  | 1 => ["batch"]
  | 2 => ["batch", "continuation"]
  | 3 => []
  | _ => ["class", "message", "backtrace"]

variable {token : Token} {place : ℕ} {members members' : List (Option String × Json)}

theorem ofMessage?_congr
    (hnamed : (members.all fun member => member.1.isSome) =
      members'.all fun member => member.1.isSome)
    (hlookup : ∀ name ∈ ownNames place,
      Json.member? name members = Json.member? name members') :
    ofMessage? ⟨token, place, members⟩ = ofMessage? ⟨token, place, members'⟩ := by
  match place with
  | 0 | 1 | 2 | 3 =>
    simp_all [ownNames, ofMessage?, TaggedMessage.required?]
  | n + 4 =>
    have hfailure :=
      Failure.ofJson?_congr .tagged Json.maxDepth hnamed hlookup
    simp only [ofMessage?, hfailure]

theorem ofMessage?_eq_none {name : String} (hname : name ∈ ownNames place)
    (hrepeated : Json.member? name members = none) :
    ofMessage? ⟨token, place, members⟩ = none := by
  match place with
  | 0 | 1 =>
    cases List.mem_singleton.1 hname
    simp [ofMessage?, TaggedMessage.required?, hrepeated]
  | 2 =>
    rcases List.mem_cons.1 hname with rfl | hname
    · simp [ofMessage?, TaggedMessage.required?, hrepeated]
    · cases List.mem_singleton.1 hname
      simp [ofMessage?, TaggedMessage.required?, hrepeated]
  | 3 => cases hname
  | n + 4 => simp [ofMessage?, Failure.ofJson?_eq_none hname hrepeated]

end Payload

namespace Response

abbrev Members := List (Option String × Json)

/-- The payload that the tag names, if there is one tag. -/
def place? (members : Members) : Option ℕ :=
  (Json.member? "type" members).bind fun tag =>
    tag.bind (TaggedMessage.tagIndex? Payload.tags)

/-- The names that are looked up in a response. -/
def ownNames (members : Members) : List String :=
  "token" :: "type" :: ((place? members).map Payload.ownNames).getD []

/-- A change that keeps what a response means: its members are put in another order,
or one that is not looked up comes or goes. -/
inductive Edit : Members → Members → Prop where
  | reorder {members members' : Members} : members.Perm members' → Edit members members'
  | add {members : Members} {name : String} {value : Json} :
      name ∉ ownNames members → value.isSound (Json.maxDepth - 1) →
      Edit members ((some name, value) :: members)
  | remove {members : Members} {name : String} {value : Json} :
      name ∉ ownNames members → value.isSound (Json.maxDepth - 1) →
      Edit ((some name, value) :: members) members

/-- Nobody who looks at two objects as responses can tell them apart. -/
structure Alike (members members' : Members) : Prop where
  sound : (Json.object members).isSound Json.maxDepth =
    (Json.object members').isSound Json.maxDepth
  lookup : ∀ name ∈ ownNames members,
    Json.member? name members = Json.member? name members'

variable {members members' members'' : Members}

theorem Alike.ownNames_eq (h : Alike members members') :
    ownNames members = ownNames members' := by
  have htag := h.lookup "type" (by simp [ownNames])
  rw [ownNames, ownNames, place?, place?, htag]

theorem Alike.trans (h : Alike members members') (h' : Alike members' members'') :
    Alike members members'' where
  sound := h.sound.trans h'.sound
  lookup name hname :=
    (h.lookup name hname).trans (h'.lookup name (h.ownNames_eq ▸ hname))

theorem Alike.symm (h : Alike members members') : Alike members' members where
  sound := h.sound.symm
  lookup name hname := (h.lookup name (h.ownNames_eq ▸ hname)).symm

theorem alike_cons {name : String} {value : Json} (hname : name ∉ ownNames members)
    (hvalue : value.isSound (Json.maxDepth - 1)) :
    Alike members ((some name, value) :: members) where
  sound := (Json.isSound_members_cons hvalue).symm
  lookup other hother := by
    have hne : some name ≠ some other := fun heq =>
      hname (Option.some.inj heq ▸ hother)
    rw [Json.member?_cons_of_ne hne]

theorem Edit.alike (h : Edit members members') : Alike members members' := by
  cases h with
  | reorder hperm =>
      exact ⟨Json.isSound_members_perm hperm, fun name _ => Json.member?_perm hperm name⟩
  | add hname hvalue => exact alike_cons hname hvalue
  | remove hname hvalue => exact (alike_cons hname hvalue).symm

theorem alike_of_edits (h : Relation.ReflTransGen Edit members members') :
    Alike members members' := by
  induction h with
  | refl => exact ⟨rfl, fun _ _ => rfl⟩
  | tail _ hedit ih => exact ih.trans hedit.alike

theorem ofJson?_of_sound (hsound : (Json.object members).isSound Json.maxDepth) :
    ofJson? (.object members) = do
      let token ← (← Json.member? "token" members).bind Json.asWord?
      let place ← place? members
      let payload ← Payload.ofMessage? ⟨.ofNat token, place, members⟩
      return ⟨.ofNat token, payload⟩ := by
  simp only [ofJson?, TaggedMessage.ofJson?, hsound, if_true, place?,
    Option.bind_eq_bind, Option.bind_assoc]
  rfl

theorem Alike.ofJson?_eq (h : Alike members members') :
    ofJson? (.object members) = ofJson? (.object members') := by
  by_cases hsound : (Json.object members).isSound Json.maxDepth
  · have hsound' : (Json.object members').isSound Json.maxDepth := h.sound ▸ hsound
    have htoken := h.lookup "token" (by simp [ownNames])
    have htag := h.lookup "type" (by simp [ownNames])
    have hplace : place? members = place? members' := by
      rw [place?, place?, htag]
    have hnamed : (members.all fun member => member.1.isSome) =
        members'.all fun member => member.1.isSome := by
      rw [List.all_eq_true.2 fun member hmember =>
          (Json.isSound_members_iff.1 hsound member hmember).1,
        List.all_eq_true.2 fun member hmember =>
          (Json.isSound_members_iff.1 hsound' member hmember).1]
    rw [ofJson?_of_sound hsound, ofJson?_of_sound hsound', htoken, ← hplace]
    cases hnames : place? members with
    | none => rfl
    | some place =>
        have hlookup : ∀ name ∈ Payload.ownNames place,
            Json.member? name members = Json.member? name members' :=
          fun name hname => h.lookup name (by simp [ownNames, hnames, hname])
        simp only [Option.bind_eq_bind, Option.bind_some,
          Payload.ofMessage?_congr hnamed hlookup]
  · have hsound' := h.sound ▸ hsound
    simp [ofJson?, TaggedMessage.ofJson?, hsound, hsound']

theorem ofJson?_eq_none {name : String} (hname : name ∈ ownNames members)
    (hrepeated : 1 < members.countP fun member => member.1 = some name) :
    ofJson? (.object members) = none := by
  have hnone := Json.member?_eq_none_iff.2 hrepeated
  by_cases hsound : (Json.object members).isSound Json.maxDepth
  · rw [ofJson?_of_sound hsound]
    rcases List.mem_cons.1 hname with rfl | hname
    · simp [hnone]
    rcases List.mem_cons.1 hname with rfl | hname
    · simp [place?, hnone]
    cases hplace : place? members with
    | none => simp
    | some place =>
        rw [hplace] at hname
        simp [Payload.ofMessage?_eq_none hname hnone]
  · simp [ofJson?, TaggedMessage.ofJson?, hsound]

end Response

namespace Reply

theorem response_of_members {bytes : Bytes} {members : Response.Members}
    (hread : bytes.toText?.bind Json.parse? = some (.object members)) :
    bytes.toText?.bind Response.parse? = Response.ofJson? (.object members) :=
  calc bytes.toText?.bind Response.parse?
      = (bytes.toText?.bind Json.parse?).bind Response.ofJson? :=
        (Option.bind_assoc _ _ _).symm
    _ = Response.ofJson? (.object members) := by rw [hread, Option.bind_some]

/-- Bytes whose members were edited are decoded to the same, and a response that
repeats one of its names is malformed. -/
theorem decode_edited {bytes : Bytes} {members : Response.Members}
    (hread : bytes.toText?.bind Json.parse? = some (.object members)) (token : Token) :
    (∀ bytes' members', bytes'.toText?.bind Json.parse? = some (.object members') →
      Relation.ReflTransGen Response.Edit members members' →
        decode bytes' token = decode bytes token) ∧
    ∀ name ∈ Response.ownNames members,
      1 < (members.countP fun member => member.1 = some name) →
        decode bytes token = .error .malformed := by
  constructor
  · intro bytes' members' hread' hedits
    rw [decode, decode, response_of_members hread, response_of_members hread',
      (Response.alike_of_edits hedits).ofJson?_eq]
  · intro name hname hrepeated
    rw [decode, response_of_members hread, Response.ofJson?_eq_none hname hrepeated]

/-- A part of a sequence. -/
def partMembers : Response.Members :=
  [(some "token", .ofNat 7), (some "type", .ofText "partial"),
    (some "batch", .array [.null]), (some "continuation", .ofText "next")]

/-- The same backwards, behind names that mean nothing in a part. -/
def notedMembers : Response.Members :=
  (some "note", .null) :: (some "class", .array []) :: (some "note", .bool true) ::
    partMembers.reverse

/-- The note may stand there twice, the batch may not. -/
theorem decode_notedMembers :
    Relation.ReflTransGen Response.Edit partMembers notedMembers ∧
    decode (.ofText (Json.object notedMembers).write) 7 =
      decode (.ofText (Json.object partMembers).write) 7 ∧
    (decode (.ofText (Json.object partMembers).write) 7).toOption.isSome ∧
    decode (.ofText (Json.object ((some "batch", .null) :: partMembers)).write) 7 =
      .error .malformed := by
  have hread {members : Response.Members} (hproper : (Json.object members).IsProper) :
      (Bytes.ofText (Json.object members).write).toText?.bind Json.parse? =
        some (.object members) := by
    rw [Bytes.toText?_ofText, Option.bind_some, Json.parse?_write hproper]
  have hpart : (Json.object partMembers).IsProper := by
    simp [partMembers, Json.IsProper, Json.MembersProper, Json.ItemsProper, Json.ofNat,
      Json.ofText, Numeral.IsProper]
  have hedits : Relation.ReflTransGen Response.Edit partMembers notedMembers :=
    .tail (.tail (.tail (.single (.reorder (List.reverse_perm _).symm))
      (.add (by decide +kernel) rfl)) (.add (by decide +kernel) rfl))
      (.add (by decide +kernel) rfl)
  refine ⟨hedits, ?_, by decide +kernel, ?_⟩
  · apply (decode_edited (hread hpart) 7).1 _ _ (hread ?_) hedits
    simp [notedMembers, partMembers, Json.IsProper, Json.MembersProper,
      Json.ItemsProper, Json.ofNat, Json.ofText, Numeral.IsProper]
  · apply (decode_edited (hread ?_) 7).2 "batch" (by decide +kernel) (by decide +kernel)
    exact ⟨trivial, hpart⟩

end Reply

end DocumentQuery
