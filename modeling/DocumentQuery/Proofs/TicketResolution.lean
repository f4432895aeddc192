import DocumentQuery.Proofs.PendingHistory

/-!
# What becomes of tickets

Each ticket is told what the first operation brought that concerned its token
after the ticket was given out, and nothing changes that later.  An answer goes
to the one ticket that waits under its token, if there is one, and a token is
free again as soon as nobody waits under it.
-/

namespace DocumentQuery

namespace PendingRequests

variable {history : List Operation}

/-! ## All histories -/

theorem matches_start : Matches [] {} := by
  have hnone : ∀ ticket later, ¬ Since [] ticket later := by
    rintro ticket later ⟨earlier, hsplit, _⟩
    simp at hsplit
  constructor
  · intro ticket
    refine iff_of_false List.not_mem_nil ?_
    rintro ⟨later, hsince, _⟩
    exact hnone ticket later hsince
  · exact List.nodup_nil
  · simp
  · exact fun ticket later hsince => (hnone ticket later hsince).elim
  · exact fun _ _ => rfl
  · exact fun ticket later hsince => (hnone ticket later hsince).elim
  · exact fun ticket later hsince => (hnone ticket later hsince).elim

/-- An operation that ends the wait under a token concerns the ticket that waits
there, if there is one. -/
theorem Matches.settle_token (h : Matches history (after history))
    {operation : Operation} {token : Token} {fate : Fate}
    (hquiet : Quiet (after history) operation)
    (hlost : ∀ fault, operation ≠ .failAll fault)
    (hdrop : ∀ ticket, operation ≠ .drop ticket)
    (hbrings : ∀ other, brings? other operation =
      if token = other then some (fate.result other) else none) :
    Matches (history ++ [operation]) ((after history).settle token fate) := by
  cases hlookup : (after history).waiting.lookup token with
  | none =>
      have hunchanged : (after history).settle token fate = after history := by
        rw [PendingRequests.settle, hlookup]
      rw [hunchanged]
      refine h.unchanged hquiet hlost fun other hother => ⟨hdrop other, ?_⟩
      rw [hbrings, if_neg (h.lookup_eq_none_iff.1 hlookup other hother).symm]
  | some number =>
      have hwaits : Waits history ⟨number, token⟩ :=
        h.lookup_eq_some_iff.1 hlookup
      refine h.settle hwaits hquiet hlost ?_ (.inr ?_)
      · intro other hother hne
        refine ⟨hdrop other, ?_⟩
        rw [hbrings, if_neg fun htoken =>
          hne (h.eq_of_token hwaits hother htoken.symm)]
      · rw [hbrings, if_pos rfl]

theorem Matches.register_any (h : Matches history (after history))
    (token : Token) :
    Matches (history ++ [.register token])
      ((after history).register token).2 := by
  have hunchanged : ∀ fault,
      (after history).register token = (.error fault, after history) →
      Matches (history ++ [.register token])
        ((after history).register token).2 := by
    intro fault hregister
    rw [hregister]
    refine h.unchanged ?_ (by rintro _ ⟨⟩) fun _ _ => ⟨by rintro ⟨⟩, rfl⟩
    intro ticket htoken
    rw [← Operation.register.inj htoken, hregister]
    rintro ⟨⟩
  cases hlost : (after history).lost with
  | some fault => exact hunchanged fault (register_of_lost hlost)
  | none =>
      cases hlookup : (after history).waiting.lookup token with
      | some number => exact hunchanged _ (register_of_taken hlost hlookup)
      | none => exact h.register hlost hlookup

theorem Matches.drop (h : Matches history (after history)) {ticket : Ticket}
    (hlive : Live history ticket) :
    Matches (history ++ [.drop ticket]) ((after history).drop ticket) := by
  have hquiet : Quiet (after history) (.drop ticket) := by
    rintro _ ⟨⟩
  have hlost : ∀ fault, Operation.drop ticket ≠ .failAll fault := by
    rintro _ ⟨⟩
  have hother : ∀ other, other ≠ ticket →
      Operation.drop ticket ≠ .drop other ∧
        brings? other.token (.drop ticket) = none :=
    fun other hne => ⟨fun heq => hne (Operation.drop.inj heq).symm, rfl⟩
  cases hfate : (after history).fates.lookup ticket.number with
  | some fate =>
      have hunchanged : (after history).drop ticket = after history := by
        rw [PendingRequests.drop, hfate]
      rw [hunchanged]
      refine h.unchanged hquiet hlost fun other hwaits => hother other ?_
      rintro rfl
      rw [h.fate_of_waits hwaits] at hfate
      cases hfate
  | none =>
      have hremove : (after history).drop ticket =
          (after history).settle ticket.token .removed := by
        rw [PendingRequests.drop, hfate, remove]
      rw [hremove]
      exact h.settle (h.waits_of_fate hlive hfate) hquiet hlost
        (fun other _ => hother other) (.inl rfl)

/-- The table agrees with every history in which tickets are dropped by their
holders only. -/
theorem Lawful.matches_after (h : Lawful history) :
    Matches history (after history) := by
  induction h with
  | start => exact matches_start
  | @step history operation _ hdrop ih =>
      rw [after_concat]
      cases operation with
      | register token => exact ih.register_any token
      | complete token payload =>
          exact ih.settle_token (by rintro _ ⟨⟩) (by rintro _ ⟨⟩)
            (by rintro _ ⟨⟩) fun _ => rfl
      | remove token =>
          refine ih.settle_token (by rintro _ ⟨⟩) (by rintro _ ⟨⟩)
            (by rintro _ ⟨⟩) fun other => ?_
          by_cases htoken : token = other
          · subst htoken
            rfl
          · simp [brings?, htoken]
      | failAll fault => exact ih.failAll fault
      | drop ticket => exact ih.drop (hdrop ticket rfl)

/-! ## Answers and new tickets -/

theorem Matches.register_ok_iff (h : Matches history (after history))
    (token : Token) :
    (∃ ticket, ((after history).register token).1 = .ok ticket) ↔
      (∀ fault, Operation.failAll fault ∉ history) ∧
        ∀ ticket, Waits history ticket → ticket.token ≠ token := by
  rw [← h.lookup_eq_none_iff, ← not_exists, ← h.lost, Option.not_isSome_iff_eq_none]
  constructor
  · rintro ⟨ticket, hregister⟩
    cases hlost : (after history).lost with
    | some fault =>
        rw [register_of_lost hlost] at hregister
        cases hregister
    | none =>
        refine ⟨rfl, ?_⟩
        cases hlookup : (after history).waiting.lookup token with
        | none => rfl
        | some number =>
            rw [register_of_taken hlost hlookup] at hregister
            cases hregister
  · rintro ⟨hlost, hlookup⟩
    exact ⟨_, by rw [register_of_free hlost hlookup]⟩

/-- An answer under a token reaches the ticket that waits there, and leaves
everything else as it is. -/
theorem Matches.complete (h : Matches history (after history)) {ticket : Ticket}
    (hwaits : Waits history ticket) (payload : Bytes) :
    let p := ((after history).complete ticket.token payload).2
    p.answer? ticket = some (.ok payload) ∧
      (∀ other : Ticket, other.number ≠ ticket.number →
        p.answer? other = (after history).answer? other) ∧
      p.waiting = (after history).waiting.filter (·.1 ≠ ticket.token) ∧
      p.lost = (after history).lost := by
  have hsettle := settle_of_waits h hwaits (.answered payload)
  dsimp only [PendingRequests.complete]
  rw [hsettle]
  refine ⟨?_, fun other hne => ?_, rfl, rfl⟩
  · rw [answer?_eq, List.lookup_cons, beq_self_eq_true]
    rfl
  · rw [answer?_eq, answer?_eq, List.lookup_cons, beq_false_of_ne hne]

theorem Matches.complete_unknown (h : Matches history (after history))
    {token : Token} (hnone : ∀ ticket, Waits history ticket → ticket.token ≠ token)
    (payload : Bytes) :
    ((after history).complete token payload).2 = after history := by
  rw [PendingRequests.complete, PendingRequests.settle,
    h.lookup_eq_none_iff.2 hnone]

/-- Every ticket that has not been dropped is told what the first operation
since it was given out brought that concerned its token, and whatever happens
later, it is told the same.  An answer resolves the one ticket that waits under
its token and no other, and changes nothing if there is none.  A ticket is given
out exactly if the connection was never lost and nobody waits under the
token. -/
theorem resolved_once (h : Lawful history) :
    (∀ ticket later, Since history ticket later →
      Operation.drop ticket ∉ later →
      (after history).answer? ticket = resolution ticket.token later ∧
      ∀ result more, resolution ticket.token later = some result →
        Lawful (history ++ more) → Operation.drop ticket ∉ more →
        (after (history ++ more)).answer? ticket = some result) ∧
    (∀ token payload,
      (∃ ticket, Waits history ticket ∧ ticket.token = token ∧
        (∀ other, Waits history other → other.token = token → other = ticket) ∧
        ((after history).complete token payload).2.answer? ticket =
          some (.ok payload) ∧
        (∀ other : Ticket, other.number ≠ ticket.number →
          ((after history).complete token payload).2.answer? other =
            (after history).answer? other) ∧
        ((after history).complete token payload).2.waiting =
          (after history).waiting.filter (·.1 ≠ token) ∧
        ((after history).complete token payload).2.lost =
          (after history).lost) ∨
      (∀ ticket, Waits history ticket → ticket.token ≠ token) ∧
        ((after history).complete token payload).2 = after history) ∧
    ∀ token, (∃ ticket, ((after history).register token).1 = .ok ticket) ↔
      (∀ fault, Operation.failAll fault ∉ history) ∧
        ∀ ticket, Waits history ticket → ticket.token ≠ token := by
  have hmatches := h.matches_after
  refine ⟨fun ticket later hsince hlive => ⟨?_, ?_⟩, fun token payload => ?_,
    hmatches.register_ok_iff⟩
  · exact hmatches.answers ticket later hsince hlive
  · intro result more hresult hlawful hmore
    rw [hlawful.matches_after.answers ticket _ (hsince.append more)
      (by simp [hlive, hmore]), resolution_append, hresult]
    rfl
  · by_cases hwaits : ∃ ticket, Waits history ticket ∧ ticket.token = token
    · obtain ⟨ticket, hwaits, rfl⟩ := hwaits
      exact .inl ⟨ticket, hwaits, rfl,
        fun other hother => hmatches.eq_of_token hwaits hother,
        hmatches.complete hwaits payload⟩
    · push Not at hwaits
      exact .inr ⟨hwaits, hmatches.complete_unknown hwaits payload⟩

/-- A token used again before its first ticket is dropped, and then the loss of
the connection. -/
def reusedToken (fault : Fault) : List Operation :=
  [.register 1, .complete 1 [7], .register 1, .drop ⟨0, 1⟩, .failAll fault]

theorem lawful_reusedToken (fault : Fault) : Lawful (reusedToken fault) := by
  have hfree : ∀ {history : List Operation} {operation : Operation},
      Lawful history → (∀ ticket, operation ≠ .drop ticket) →
      Lawful (history ++ [operation]) :=
    fun hlawful hdrop => hlawful.step fun ticket heq => (hdrop ticket heq).elim
  have hbefore : Lawful [.register 1, .complete 1 [7], .register 1] :=
    hfree (hfree (hfree .start (by simp)) (by simp)) (by simp)
  have hdrop : Lawful
      ([.register 1, .complete 1 [7], .register 1] ++ [.drop ⟨0, 1⟩]) := by
    refine hbefore.step ?_
    rintro _ ⟨⟩
    exact ⟨[.complete 1 [7], .register 1], ⟨[], rfl, rfl⟩, by simp⟩
  exact hfree hdrop (by simp)

/-- The late drop leaves the second ticket alone, which is told of the loss. -/
theorem resolved_once_reusedToken :
    let fault : Fault := .connection .closedInHandshake
    Lawful (reusedToken fault) ∧
      (after (reusedToken fault)).answer? ⟨1, 1⟩ = some (.error fault) ∧
      ¬ ∃ ticket, ((after (reusedToken fault)).register 2).1 = .ok ticket := by
  intro fault
  have hlawful := lawful_reusedToken fault
  obtain ⟨htold, _, hregister⟩ := resolved_once hlawful
  have hsince : Since (reusedToken fault) ⟨1, 1⟩
      [.drop ⟨0, 1⟩, .failAll fault] :=
    ⟨[.register 1, .complete 1 [7]], rfl, rfl⟩
  refine ⟨hlawful, (htold _ _ hsince (by simp)).1, ?_⟩
  rw [hregister 2]
  exact fun hnone => hnone.1 fault (by simp [reusedToken])

end PendingRequests

end DocumentQuery
