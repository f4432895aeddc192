import DocumentQuery.Proofs.TicketResolution

/-!
# Late answers

Who answers requests knows nothing of tickets.  Every request that was sent is
answered once, in any order and after any delay, and its answer is handed out by
its token.  A ticket that is dropped leaves its token free while the answer is
still to come, so that the answer finds whoever has taken the token since.  Each
wrong answer goes back to such a drop: a ticket is told the answer to its own
request as long as no ticket for its token is dropped while it waits.
-/

namespace DocumentQuery

namespace PendingRequests

/-! ## Requests and who answers them -/

/-- What happens between those who send requests and who answers them.  A request
goes by its ticket. -/
inductive Event where
  | send (token : Token)
  | drop (ticket : Ticket)
  | answer (request : Ticket) (payload : Bytes)

/-- What an event is for the table, which is told the token of an answer only. -/
def Event.operation : Event → Operation
  | .send token => .register token
  | .drop ticket => .drop ticket
  | .answer request payload => .complete request.token payload

def operationsOf (run : List Event) : List Operation := run.map Event.operation

/-- The next thing after a run is that the ticket is given out. -/
def GivenOut (run : List Event) (ticket : Ticket) : Prop :=
  ((after (operationsOf run)).register ticket.token).1 = .ok ticket

def Sent (run : List Event) (request : Ticket) : Prop :=
  ∃ later, Since (operationsOf run) request later

def Answered (run : List Event) (request : Ticket) : Prop :=
  ∃ payload, .answer request payload ∈ run

/-- The answer to the request is still to come. -/
def Outstanding (run : List Event) (request : Ticket) : Prop :=
  Sent run request ∧ ¬ Answered run request

def Event.Follows (run : List Event) : Event → Prop
  | .send _ => True
  | .drop ticket => Live (operationsOf run) ticket
  | .answer request _ => Outstanding run request

/-- Runs in which tickets are dropped by their holders only, and no request is
answered before it was sent, or twice. -/
inductive Served : List Event → Prop where
  | start : Served []
  | step {run : List Event} {event : Event} : Served run → event.Follows run →
      Served (run ++ [event])

/-- The ticket was dropped while it waited. -/
def Abandoned (run : List Event) (ticket : Ticket) : Prop :=
  ∃ before later, run = before ++ .drop ticket :: later ∧
    Waits (operationsOf before) ticket

/-- The holder of the ticket has been told nothing yet, and the answer to the
request is what he is told if it comes next. -/
structure Takes (run : List Event) (ticket request : Ticket) (payload : Bytes) :
    Prop where
  live : Live (operationsOf run) ticket
  untold : (after (operationsOf run)).answer? ticket = none
  told : (after (operationsOf (run ++ [.answer request payload]))).answer? ticket =
    some (.ok payload)

/-- What the holder of the ticket was told is the answer to the request. -/
def ResolvedBy (run : List Event) (ticket request : Ticket) : Prop :=
  ∃ before payload later, run = before ++ .answer request payload :: later ∧
    Takes before ticket request payload

/-! ## Parts of runs -/

section

variable {run before later : List Event} {event : Event}
  {ticket request other : Ticket}

theorem operationsOf_concat (run : List Event) (event : Event) :
    operationsOf (run ++ [event]) = operationsOf run ++ [event.operation] :=
  List.map_append

theorem Served.of_concat (h : Served (run ++ [event])) :
    Served run ∧ event.Follows run := by
  generalize hfull : run ++ [event] = full at h
  cases h with
  | start => simp at hfull
  | step hrun hfollows =>
      obtain ⟨rfl, hevent⟩ := List.append_inj' hfull rfl
      cases hevent
      exact ⟨hrun, hfollows⟩

theorem Served.of_append (h : Served (before ++ later)) : Served before := by
  induction later using List.reverseRecOn with
  | nil => rwa [List.append_nil] at h
  | append_singleton later event ih =>
      rw [← List.append_assoc] at h
      exact ih h.of_concat.1

theorem Served.follows (h : Served (before ++ event :: later)) :
    event.Follows before := by
  rw [List.append_cons] at h
  exact h.of_append.of_concat.2

theorem Served.lawful (h : Served run) : Lawful (operationsOf run) := by
  induction h with
  | start => exact .start
  | @step run event _ hfollows ih =>
      rw [operationsOf_concat]
      apply ih.step
      rintro ticket hdrop
      cases event with
      | send token => cases hdrop
      | drop ticket =>
          cases hdrop
          exact hfollows
      | answer request payload => cases hdrop

theorem Served.matches (h : Served run) :
    Matches (operationsOf run) (after (operationsOf run)) :=
  h.lawful.matches_after

theorem since_operationsOf {later : List Operation}
    (h : Since (operationsOf run) ticket later) :
    ∃ before rest, run = before ++ .send ticket.token :: rest ∧
      later = operationsOf rest ∧ GivenOut before ticket := by
  obtain ⟨earlier, hsplit, hgiven⟩ := h
  obtain ⟨before, rest', rfl, rfl, hrest⟩ := List.map_eq_append_iff.1 hsplit
  obtain ⟨event, rest, rfl, hevent, rfl⟩ := List.map_eq_cons_iff.1 hrest
  cases event with
  | send token =>
      cases hevent
      exact ⟨before, rest, rfl, rfl, hgiven⟩
  | drop ticket => cases hevent
  | answer request payload => cases hevent

theorem GivenOut.since (h : GivenOut before ticket) (later : List Event) :
    Since (operationsOf (before ++ .send ticket.token :: later)) ticket
      (operationsOf later) :=
  ⟨operationsOf before, List.map_append, h⟩

theorem GivenOut.eq (h : GivenOut run ticket) (hother : GivenOut run other)
    (htoken : other.token = ticket.token) : other = ticket := by
  rw [GivenOut, htoken, h] at hother
  exact (Except.ok.inj hother).symm

theorem GivenOut.token_free (hrun : Served run) (h : GivenOut run ticket)
    (hwaits : Waits (operationsOf run) other) : other.token ≠ ticket.token :=
  ((hrun.matches.register_ok_iff ticket.token).1 ⟨ticket, h⟩).2 other hwaits

/-- Tickets are numbered in the order in which they are given out. -/
theorem GivenOut.number_lt (hrun : Served run) (h : GivenOut run ticket)
    (hsent : Sent run other) : other.number < ticket.number := by
  have hfree : (after (operationsOf run)).waiting.lookup ticket.token = none := by
    rw [hrun.matches.lookup_eq_none_iff]
    exact fun _ => h.token_free hrun
  have hlost : (after (operationsOf run)).lost = none := by
    cases hlost : (after (operationsOf run)).lost with
    | none => rfl
    | some fault =>
        rw [GivenOut, register_of_lost hlost] at h
        cases h
  rw [GivenOut, register_of_free hlost hfree] at h
  obtain ⟨later, hsince⟩ := hsent
  have hnumber := congrArg Ticket.number (Except.ok.inj h)
  rw [← hnumber]
  exact hrun.matches.number_lt other later hsince

theorem Abandoned.append (h : Abandoned run ticket) (more : List Event) :
    Abandoned (run ++ more) ticket := by
  obtain ⟨before, later, rfl, hwaits⟩ := h
  exact ⟨before, later ++ more, by simp, hwaits⟩

theorem ResolvedBy.append (h : ResolvedBy run ticket request) (more : List Event) :
    ResolvedBy (run ++ more) ticket request := by
  obtain ⟨before, payload, later, rfl, htakes⟩ := h
  exact ⟨before, payload, later ++ more, by simp, htakes⟩

/-! ## Ends of waits -/

/-- A wait ends with a drop, or with an answer under its token. -/
theorem exists_end_of_wait (hsent : Sent run ticket)
    (hended : ¬ Waits (operationsOf run) ticket) :
    ∃ before event later, run = before ++ event :: later ∧
      Waits (operationsOf before) ticket ∧
      (event = .drop ticket ∨
        ∃ request payload, event = .answer request payload ∧
          request.token = ticket.token) := by
  induction run using List.reverseRecOn with
  | nil =>
      obtain ⟨later, hsince⟩ := hsent
      obtain ⟨before, rest, hsplit, _⟩ := since_operationsOf hsince
      simp at hsplit
  | append_singleton run event ih =>
      by_cases hwaits : Waits (operationsOf run) ticket
      · refine ⟨run, event, [], rfl, hwaits, ?_⟩
        rw [operationsOf_concat] at hended
        cases event with
        | send token => exact (hended (hwaits.concat (by rintro ⟨⟩) rfl)).elim
        | drop other =>
            by_cases hother : other = ticket
            · exact .inl (congrArg Event.drop hother)
            · refine (hended (hwaits.concat ?_ rfl)).elim
              exact fun heq => hother (Operation.drop.inj heq)
        | answer request payload =>
            by_cases htoken : request.token = ticket.token
            · exact .inr ⟨request, payload, rfl, htoken⟩
            · exact (hended (hwaits.concat (by rintro ⟨⟩) (if_neg htoken))).elim
      · obtain ⟨later, hsince⟩ := hsent
        rw [operationsOf_concat] at hsince
        rcases since_concat.1 hsince with ⟨rfl, _⟩ | ⟨later', _, hbefore⟩
        · refine absurd ⟨[], ?_, List.not_mem_nil, rfl⟩ hended
          rwa [operationsOf_concat]
        · obtain ⟨before, last, rest, rfl, hends⟩ := ih ⟨later', hbefore⟩ hwaits
          exact ⟨before, last, rest ++ [event], by simp, hends⟩

theorem Served.takes_iff (h : Served run) {payload : Bytes} :
    Takes run ticket request payload ↔
      Waits (operationsOf run) ticket ∧ request.token = ticket.token := by
  constructor
  · rintro ⟨hlive, huntold, htold⟩
    have hwaits : Waits (operationsOf run) ticket :=
      h.matches.waits_of_fate hlive (answer?_eq_none_iff.1 huntold)
    refine ⟨hwaits, ?_⟩
    by_contra htoken
    have hlawful : Lawful
        (operationsOf run ++ [.complete request.token payload]) :=
      h.lawful.step (by rintro _ ⟨⟩)
    have hlater : Waits
        (operationsOf run ++ [.complete request.token payload]) ticket :=
      hwaits.concat (by rintro ⟨⟩) (if_neg htoken)
    have hnone := hlawful.matches_after.fate_of_waits hlater
    rw [operationsOf_concat, answer?_eq, Event.operation, hnone] at htold
    cases htold
  · rintro ⟨hwaits, htoken⟩
    refine ⟨?_, answer?_eq_none_iff.2 (h.matches.fate_of_waits hwaits), ?_⟩
    · obtain ⟨later, hsince, hlive, _⟩ := hwaits
      exact ⟨later, hsince, hlive⟩
    · rw [operationsOf_concat]
      refine (congrArg (answer? · ticket) (after_concat ..)).trans ?_
      rw [Event.operation, htoken]
      exact (h.matches.complete hwaits payload).1

/-! ## Whose answer it is -/

/-- The two places at which a list was split. -/
theorem append_cons_cases {α : Type} {a a' b b' : List α} {x x' : α}
    (h : a ++ x :: b = a' ++ x' :: b') :
    a = a' ∨ (∃ m, a' = a ++ x :: m ∧ b = m ++ x' :: b') ∨
      ∃ m, a = a' ++ x' :: m := by
  rcases List.append_eq_append_iff.1 h with ⟨m, rfl, hm⟩ | ⟨m, rfl, hm⟩
  · cases m with
    | nil => exact .inl (List.append_nil a).symm
    | cons y m =>
        obtain ⟨rfl, hb⟩ := List.cons.inj hm
        exact .inr (.inl ⟨m, rfl, hb⟩)
  · cases m with
    | nil => exact .inl (List.append_nil a')
    | cons y m =>
        obtain ⟨rfl, _⟩ := List.cons.inj hm
        exact .inr (.inr ⟨m, rfl⟩)

/-- Of two requests under one token of which one is not answered and the ticket
of the other waits, the one not answered is the same or was there before. -/
theorem Served.overtaken (h : Served run)
    (hwaits : Waits (operationsOf run) ticket) (hrequest : Outstanding run request)
    (htoken : request.token = ticket.token) :
    request = ticket ∨ ∃ before later, run = before ++ .send ticket.token :: later ∧
      GivenOut before ticket ∧ Outstanding before request := by
  obtain ⟨_, hsince, hlive, hnone⟩ := hwaits
  obtain ⟨before, later, rfl, rfl, hgiven⟩ := since_operationsOf hsince
  obtain ⟨⟨_, hsince'⟩, hunanswered⟩ := hrequest
  obtain ⟨before', later', hsplit, -, hgiven'⟩ := since_operationsOf hsince'
  rcases append_cons_cases hsplit with rfl | ⟨between, rfl, rfl⟩ | ⟨between, rfl⟩
  · exact .inl (hgiven.eq hgiven' htoken)
  · -- The ticket would still wait when the request is sent under its token.
    exfalso
    have hserved : Served (before ++ .send ticket.token :: between) := by
      apply Served.of_append
      rwa [← hsplit]
    refine hgiven'.token_free hserved ⟨_, hgiven.since between, ?_, ?_⟩ htoken.symm
    · simp only [operationsOf, List.map_append, List.mem_append, not_or] at hlive
      exact hlive.1
    · rw [operationsOf, List.map_append, resolution_append,
        Option.or_eq_none_iff] at hnone
      exact hnone.1
  · refine .inr ⟨_, later, rfl, hgiven, ⟨_, hgiven'.since between⟩, ?_⟩
    rintro ⟨payload, hanswer⟩
    exact hunanswered ⟨payload, List.mem_append_left _ hanswer⟩

theorem Served.own_answer (h : Served run) {token : Token}
    (hkept : ∀ request, request.token = token → ¬ Abandoned run request)
    (hticket : ticket.token = token) (hresolved : ResolvedBy run ticket request) :
    request = ticket := by
  induction hnumber : ticket.number using Nat.strong_induction_on
    generalizing ticket request with
  | h number ih =>
      obtain ⟨before, payload, later, rfl, htakes⟩ := hresolved
      have houtstanding : Outstanding before request := h.follows
      obtain ⟨hwaits, htoken⟩ := h.of_append.takes_iff.1 htakes
      rcases h.of_append.overtaken hwaits houtstanding htoken with
        heq | ⟨first, rest, rfl, hgiven, hsent, hunanswered⟩
      · exact heq
      have hfirst : Served first := h.of_append.of_append
      have hended : ¬ Waits (operationsOf first) request :=
        fun hwaits => hgiven.token_free hfirst hwaits htoken
      -- The request was unanswered and yet waited no more, so that its ticket was
      -- dropped or told another answer in turn.
      obtain ⟨start, event, middle, rfl, hwaits', hends⟩ :=
        exists_end_of_wait hsent hended
      rcases hends with rfl | ⟨other, payload', rfl, htoken'⟩
      · have hdropped : Abandoned (start ++ .drop request :: middle) request :=
          ⟨start, middle, rfl, hwaits'⟩
        exact (hkept request (htoken.trans hticket)
          ((hdropped.append _).append _)).elim
      · have htold : ResolvedBy (start ++ .answer other payload' :: middle)
            request other :=
          ⟨start, payload', middle, rfl,
            hfirst.of_append.takes_iff.2 ⟨hwaits', htoken'⟩⟩
        have hlt : request.number < number := by
          rw [← hnumber]
          exact hgiven.number_lt hfirst hsent
        obtain rfl := ih _ hlt (htoken.trans hticket)
          ((htold.append _).append _) rfl
        exact (hunanswered ⟨payload', by simp⟩).elim

/-- An answer is told to the ticket that waits under the token of its request.  If
that is another ticket than the request's own, then the request was sent before it
was given out, and the answer was still to come then.  As long as no ticket for a
token is dropped while it waits, every ticket for it is told the answer to its own
request. -/
theorem Served.answered_by_token (h : Served run) :
    (∀ ticket request payload, Takes run ticket request payload ↔
      Waits (operationsOf run) ticket ∧ request.token = ticket.token) ∧
    (∀ ticket request, ResolvedBy run ticket request → request = ticket ∨
      request.token = ticket.token ∧ request.number < ticket.number ∧
        ∃ before later, run = before ++ .send ticket.token :: later ∧
          GivenOut before ticket ∧ Outstanding before request) ∧
    ∀ token, (∀ request, request.token = token → ¬ Abandoned run request) →
      ∀ ticket request, ticket.token = token → ResolvedBy run ticket request →
        request = ticket := by
  refine ⟨fun _ _ _ => h.takes_iff, ?_, fun _ hkept _ _ => h.own_answer hkept⟩
  rintro ticket request ⟨before, payload, later, rfl, htakes⟩
  obtain ⟨hwaits, htoken⟩ := h.of_append.takes_iff.1 htakes
  rcases h.of_append.overtaken hwaits h.follows htoken with
    heq | ⟨first, rest, rfl, hgiven, hrequest⟩
  · exact .inl heq
  · have hlt := hgiven.number_lt h.of_append.of_append hrequest.1
    exact .inr ⟨htoken, hlt, first, _, List.append_assoc .., hgiven, hrequest⟩

end

/-- A token is sent again after its ticket was dropped, and then both requests are
answered in the order in which they were sent. -/
def sentAgain : List Event :=
  [.send 1, .drop ⟨0, 1⟩, .send 1, .answer ⟨0, 1⟩ [97], .answer ⟨1, 1⟩ [98]]

theorem served_sentAgain : Served sentAgain := by
  have hsent : Served [.send 1] := Served.start.step trivial
  have hdropped : Served [.send 1, .drop ⟨0, 1⟩] :=
    hsent.step ⟨[], ⟨[], rfl, rfl⟩, List.not_mem_nil⟩
  have hagain : Served [.send 1, .drop ⟨0, 1⟩, .send 1] :=
    hdropped.step trivial
  have hfirst : Served [.send 1, .drop ⟨0, 1⟩, .send 1, .answer ⟨0, 1⟩ [97]] := by
    refine hagain.step ⟨⟨_, [], rfl, rfl⟩, ?_⟩
    simp [Answered]
  refine hfirst.step ⟨⟨_, [.register 1, .drop ⟨0, 1⟩], rfl, rfl⟩, ?_⟩
  simp [Answered]

theorem sent_sentAgain {request : Ticket} (h : Sent sentAgain request) :
    request = ⟨0, 1⟩ ∨ request = ⟨1, 1⟩ := by
  obtain ⟨later, hsince⟩ := h
  have hfirst : Since (operationsOf sentAgain) ⟨0, 1⟩ _ := ⟨[], rfl, rfl⟩
  have hsecond : Since (operationsOf sentAgain) ⟨1, 1⟩ _ :=
    ⟨[.register 1, .drop ⟨0, 1⟩], rfl, rfl⟩
  have hmatches := served_sentAgain.matches
  have hlt : request.number < 2 := hmatches.number_lt request later hsince
  rcases (by omega : request.number = 0 ∨ request.number = 1) with
    hnumber | hnumber
  · exact .inl (hmatches.unique _ _ hsince _ _ hfirst hnumber)
  · exact .inr (hmatches.unique _ _ hsince _ _ hsecond hnumber)

theorem abandoned_sentAgain : Abandoned sentAgain ⟨0, 1⟩ :=
  ⟨[.send 1], _, rfl, [], ⟨[], rfl, rfl⟩, List.not_mem_nil, rfl⟩

theorem resolvedBy_sentAgain : ResolvedBy sentAgain ⟨1, 1⟩ ⟨0, 1⟩ := by
  refine ⟨[.send 1, .drop ⟨0, 1⟩, .send 1], [97], _, rfl, ?_, rfl, rfl⟩
  exact ⟨[], ⟨[.register 1, .drop ⟨0, 1⟩], rfl, rfl⟩, List.not_mem_nil⟩

/-- The second request is taken to be answered by the answer to the first. -/
theorem answered_by_token_sentAgain :
    Served sentAgain ∧ ResolvedBy sentAgain ⟨1, 1⟩ ⟨0, 1⟩ ∧
      ∃ request : Ticket, request.token = 1 ∧ Abandoned sentAgain request := by
  refine ⟨served_sentAgain, resolvedBy_sentAgain, ?_⟩
  by_contra hkept
  push Not at hkept
  have hother := served_sentAgain.answered_by_token.2.2 1 hkept ⟨1, 1⟩ ⟨0, 1⟩ rfl
    resolvedBy_sentAgain
  cases hother

/-- Answers to requests that nobody waits for any more do reach others, though all
requests are answered once. -/
theorem abandoned_answer_reaches_other :
    ¬ ∀ run, Served run → (∀ request, ¬ Outstanding run request) →
      ∀ ticket request, Abandoned run request → request.token = ticket.token →
        request.number < ticket.number → ¬ ResolvedBy run ticket request := by
  intro hnever
  refine hnever sentAgain served_sentAgain ?_ ⟨1, 1⟩ ⟨0, 1⟩ abandoned_sentAgain rfl
    Nat.zero_lt_one resolvedBy_sentAgain
  rintro request ⟨hsent, hunanswered⟩
  apply hunanswered
  rcases sent_sentAgain hsent with rfl | rfl
  · exact ⟨[97], by simp [sentAgain]⟩
  · exact ⟨[98], by simp [sentAgain]⟩

end PendingRequests

end DocumentQuery
