import DocumentQuery.Proofs.CursorMoves

/-!
# Draining a cursor

A result is read to its end by calling `next` again and again, as a stream, or by
collecting the elements as values of a type.  All three hand out the same elements
and end the same way, except that collecting stops at the first element that is of
another type.
-/

namespace DocumentQuery

theorem unfoldStream_eq {τ α : Type} (step : τ → Outcome (Option α) × τ)
    (rank : τ → Nat × Nat)
    (hrank : ∀ state value after, step state = (.ok (some value), after) →
      Prod.Lex (· < ·) (· < ·) (rank after) (rank state)) (state : τ) :
    unfoldStream step rank hrank state =
      match step state with
      | (.pending, after) => ([], .pending, after)
      | (.error fault, after) => ([], .error fault, after)
      | (.ok none, after) => ([], .ok (), after)
      | (.ok (some value), after) =>
        (value :: (unfoldStream step rank hrank after).1,
          (unfoldStream step rank hrank after).2) := by
  rw [unfoldStream]
  split
  · next hstep => rw [hstep]
  · next hstep => rw [hstep]
  · next hstep => rw [hstep]
  · next hstep => simp only [hstep]

namespace Cursor

variable {σ α : Type} [Connection σ] {c c₁ : Cursor} {s s₁ : Session σ}

/-! ## Single steps -/

theorem next_of_stored_cons (hc : c.Ready) {datum : Datum} {rest : List Datum}
    (hstored : c.stored = datum :: rest) :
    c.next s = (.ok (some datum), { c.unfoldSingle with buffer := rest }, s) := by
  rw [Cursor.next, blocked?_eq_none_iff.2 hc]
  simp only [hstored]

theorem next_of_exhausted (hc : c.Ready) (hstored : c.stored = [])
    (hcontinuation : c.continuation = none) :
    c.next s = (.ok none, c.unfoldSingle, s) := by
  rw [Cursor.next, blocked?_eq_none_iff.2 hc]
  simp only [hstored, hcontinuation]

theorem next_of_stored_nil (hc : c.Ready) (hstored : c.stored = [])
    {continuation : String} (hcontinuation : c.continuation = some continuation) :
    c.next s = (c.unfoldSingle.fetch s continuation).andThen
      fun _ c s => c.next s := by
  rw [Cursor.next, blocked?_eq_none_iff.2 hc]
  simp only [hstored, hcontinuation]
  split
  · next hfetch =>
    rw [hfetch]
    rfl
  · next hfetch =>
    rw [hfetch]
    rfl
  · next hfetch =>
    rw [hfetch]
    rfl

/-- A batch that comes is taken in, and the call goes on with it. -/
theorem next_of_batch (hc : c.Ready) (hstored : c.stored = [])
    {continuation : String} (hcontinuation : c.continuation = some continuation)
    {bytes : Bytes} (hsend : s.send ⟨c.token, .resume continuation⟩ = (.reply bytes, s₁))
    {items : List Datum} {more : Option String}
    (hdecode : Reply.decode bytes c.token = .ok (.batch items more)) :
    c.next s = (c.unfoldSingle.receive items more).next
      (s₁.note (c.unfoldSingle.receiving items more)) := by
  have htoken : c.unfoldSingle.token = c.token := unfoldSingle_token c
  rw [next_of_stored_nil hc hstored hcontinuation, Cursor.fetch, htoken, hsend]
  simp only [batchOf, hdecode, Call.andThen]

theorem drain_eq (c : Cursor) (s : Session σ) :
    c.drain s =
      match c.next s with
      | (.pending, c, s) => ([], .pending, c, s)
      | (.error fault, c, s) => ([], .error fault, c, s)
      | (.ok none, c, s) => ([], .ok (), c, s)
      | (.ok (some datum), c, s) => (datum :: (c.drain s).1, (c.drain s).2) := by
  rw [Cursor.drain, unfoldStream_eq]
  rcases c.next s with ⟨(_ | _) | _ | _, c₁, s₁⟩ <;> rfl

theorem collectInto_eq (read : Reader α) (done : List α) (c : Cursor)
    (s : Session σ) :
    c.collectInto read done s =
      match c.next s with
      | (.pending, c, s) => (done, .pending, c, s)
      | (.error fault, c, s) => (done, .error fault, c, s)
      | (.ok none, c, s) => (done, .ok (), c, s)
      | (.ok (some datum), c, s) =>
        match datum.readAs read with
        | .ok value => c.collectInto read (done ++ [value]) s
        | .error cause => (done, c.fail s (.decode cause)) := by
  rw [Cursor.collectInto]
  split
  · next hnext => rw [hnext]
  · next hnext => rw [hnext]
  · next hnext => rw [hnext]
  · next datum c₁ s₁ hnext =>
    cases hread : datum.readAs read <;> simp only [hnext, hread]

/-! ## Calling `next` again and again -/

/-- Calls of `next`, one after the other, have handed out some elements, and this
is what they leave. -/
inductive Takes : Cursor → Session σ → List Datum → Cursor → Session σ → Prop where
  | nothing {c : Cursor} {s : Session σ} : Takes c s [] c s
  | next {c c₁ c₂ : Cursor} {s s₁ s₂ : Session σ} {datum : Datum}
      {rest : List Datum} :
      c.next s = (.ok (some datum), c₁, s₁) → Takes c₁ s₁ rest c₂ s₂ →
      Takes c s (datum :: rest) c₂ s₂

/-- A call of `next` that hands out nothing, and what it leaves: it finds nothing
more, fails, or waits for a batch. -/
inductive Ends : Cursor → Session σ → Call σ Unit → Prop where
  | exhausted {c c₁ : Cursor} {s s₁ : Session σ} :
      c.next s = (.ok none, c₁, s₁) → Ends c s (.ok (), c₁, s₁)
  | failed {c c₁ : Cursor} {s s₁ : Session σ} {fault : Fault} :
      c.next s = (.error fault, c₁, s₁) → Ends c s (.error fault, c₁, s₁)
  | waiting {c c₁ : Cursor} {s s₁ : Session σ} :
      c.next s = (.pending, c₁, s₁) → Ends c s (.pending, c₁, s₁)

/-- The calls of `next` come to an end. -/
theorem exists_takes_ends (c : Cursor) (s : Session σ) :
    ∃ elements c₁ s₁ ending, Takes c s elements c₁ s₁ ∧ Ends c₁ s₁ ending := by
  match hnext : c.next s with
  | (.pending, c₁, s₁) => exact ⟨[], c, s, _, .nothing, .waiting hnext⟩
  | (.error fault, c₁, s₁) => exact ⟨[], c, s, _, .nothing, .failed hnext⟩
  | (.ok none, c₁, s₁) => exact ⟨[], c, s, _, .nothing, .exhausted hnext⟩
  | (.ok (some datum), c₁, s₁) =>
      obtain ⟨elements, c₂, s₂, ending, htakes, hends⟩ := exists_takes_ends c₁ s₁
      exact ⟨datum :: elements, c₂, s₂, ending, .next hnext htakes, hends⟩
termination_by c.rank s
decreasing_by exact rank_next hnext

theorem Ends.drain {ending : Call σ Unit} (h : Ends c s ending) :
    c.drain s = ([], ending) := by
  cases h with
  | exhausted hnext | failed hnext | waiting hnext => rw [drain_eq, hnext]

theorem Ends.collectInto {ending : Call σ Unit} (h : Ends c s ending)
    (read : Reader α) (done : List α) :
    c.collectInto read done s = (done, ending) := by
  cases h with
  | exhausted hnext | failed hnext | waiting hnext => rw [collectInto_eq, hnext]

/-! ## Streams and collections -/

/-- The elements are all of the type asked for, and these are their values. -/
def ReadAs (read : Reader α) : List Datum → List α → Prop :=
  List.Forall₂ fun datum value => datum.readAs read = .ok value

/-- Either all elements are of the type asked for, or there is a first one that is
not. -/
theorem readAs_or_mismatch (read : Reader α) (elements : List Datum) :
    (∃ values, ReadAs read elements values) ∨
      ∃ before datum later values cause, elements = before ++ datum :: later ∧
        ReadAs read before values ∧ datum.readAs read = .error cause := by
  induction elements with
  | nil => exact .inl ⟨[], .nil⟩
  | cons first rest ih =>
      cases hfirst : first.readAs read with
      | error cause => exact .inr ⟨[], first, rest, [], cause, rfl, .nil, hfirst⟩
      | ok value =>
          rcases ih with ⟨values, hrest⟩ |
            ⟨before, datum, later, values, cause, rfl, hbefore, hdatum⟩
          · exact .inl ⟨value :: values, .cons hfirst hrest⟩
          · exact .inr ⟨first :: before, datum, later, value :: values, cause, rfl,
              .cons hfirst hbefore, hdatum⟩

/-- A stream yields what the calls of `next` hand out. -/
theorem Takes.drain {elements : List Datum} (h : Takes c s elements c₁ s₁) :
    c.drain s = (elements ++ (c₁.drain s₁).1, (c₁.drain s₁).2) := by
  induction h with
  | nothing => rfl
  | next hnext _ ih => rw [drain_eq, hnext]; simp only [ih, List.cons_append]

/-- Elements that are all of the type asked for go to the destination, and
collecting goes on after them. -/
theorem Takes.collectInto {elements : List Datum} (h : Takes c s elements c₁ s₁)
    {read : Reader α} {values : List α} (hvalues : ReadAs read elements values)
    (done : List α) :
    c.collectInto read done s = c₁.collectInto read (done ++ values) s₁ := by
  induction h generalizing values done with
  | nothing =>
      cases hvalues
      rw [List.append_nil]
  | next hnext _ ih =>
      cases hvalues with
      | cons hvalue hrest =>
          rw [collectInto_eq, hnext]
          simp only [hvalue, ih hrest, List.append_assoc, List.singleton_append]

/-- Taking some elements is taking the first of them and then the others. -/
theorem Takes.split {before later : List Datum}
    (h : Takes c s (before ++ later) c₁ s₁) :
    ∃ c₂ s₂, Takes c s before c₂ s₂ ∧ Takes c₂ s₂ later c₁ s₁ := by
  induction before generalizing c s with
  | nil => exact ⟨c, s, .nothing, h⟩
  | cons first before ih =>
      cases h with
      | next hnext hrest =>
          obtain ⟨c₂, s₂, hbefore, hlater⟩ := ih hrest
          exact ⟨c₂, s₂, .next hnext hbefore, hlater⟩

/-- An element of another type fails the cursor, and the destination keeps what came
before it. -/
theorem Takes.collectInto_mismatch {before : List Datum} {datum : Datum}
    (h : Takes c s (before ++ [datum]) c₁ s₁) {read : Reader α} {values : List α}
    (hvalues : ReadAs read before values) {cause : DecodeFault}
    (hdatum : datum.readAs read = .error cause) (done : List α) :
    c.collectInto read done s = (done ++ values, c₁.fail s₁ (.decode cause)) := by
  obtain ⟨c₂, s₂, hbefore, hlast⟩ := h.split
  cases hlast with
  | next hnext hnothing =>
      cases hnothing
      rw [hbefore.collectInto hvalues, collectInto_eq, hnext]
      simp only [hdatum]

/-- However a cursor is drained, it hands out the elements that calls of `next` hand
out, in their order, and ends as they do: with nothing more, with their fault, or
waiting.  A stream yields these elements.  Collecting appends their values to what
the destination holds; if one of them is of another type, the first of these ends it
with a fault that stays, and the values of the elements before it have been
appended. -/
theorem drains_agree (c : Cursor) (s : Session σ) :
    (∃ elements c₁ s₁ ending, Takes c s elements c₁ s₁ ∧ Ends c₁ s₁ ending) ∧
    ∀ elements c₁ s₁ ending, Takes c s elements c₁ s₁ → Ends c₁ s₁ ending →
      c.drain s = (elements, ending) ∧
      ∀ (α : Type) (read : Reader α),
        (∃ values, ReadAs read elements values ∧
          (∀ done, c.collectInto read done s = (done ++ values, ending)) ∧
          c.collect read s = ending.andThen fun _ c s => (.ok values, c, s)) ∨
        ∃ before datum later values cause c₂ s₂,
          elements = before ++ datum :: later ∧ ReadAs read before values ∧
          datum.readAs read = .error cause ∧
          Takes c s (before ++ [datum]) c₂ s₂ ∧
          (∀ done, c.collectInto read done s =
            (done ++ values, c₂.fail s₂ (.decode cause))) ∧
          c.collect read s = c₂.fail s₂ (.decode cause) := by
  refine ⟨exists_takes_ends c s, fun elements c₁ s₁ ending htakes hends =>
    ⟨?_, fun α read => ?_⟩⟩
  · rw [htakes.drain, hends.drain, List.append_nil]
  · rcases readAs_or_mismatch read elements with
      ⟨values, hvalues⟩ | ⟨before, datum, later, values, cause, rfl, hvalues, hdatum⟩
    · have hcollect : ∀ done, c.collectInto read done s = (done ++ values, ending) := by
        intro done
        rw [htakes.collectInto hvalues, hends.collectInto]
      refine .inl ⟨values, hvalues, hcollect, ?_⟩
      rw [Cursor.collect, hcollect, List.nil_append]
    · rw [List.append_cons] at htakes
      obtain ⟨c₂, s₂, hprefix, _⟩ := htakes.split
      have hcollect := hprefix.collectInto_mismatch hvalues hdatum
      refine .inr ⟨before, datum, later, values, cause, c₂, s₂, rfl, hvalues, hdatum,
        hprefix, hcollect, ?_⟩
      rw [Cursor.collect, hcollect]
      rfl

end Cursor

end DocumentQuery
