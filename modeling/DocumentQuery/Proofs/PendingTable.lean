import DocumentQuery.Proofs.TicketResolution

/-!
# The table of requests in flight

Those who hold tickets also wait for answers, and give a ticket up once they have
its answer.  For the table a wait is nothing until it is over and then the drop
of a ticket, so that every history with waits comes to one without.  Hence the
table has one entry for each ticket that is still held and has been told nothing,
under its token, and no others; dropping a ticket takes at most its own entry;
and after the first loss of the connection the table stays empty.
-/

namespace DocumentQuery

namespace PendingRequests

/-! ## Waiting -/

/-- An operation, or a wait for the answer to a ticket. -/
inductive Use where
  | operate (operation : Operation)
  | wait (ticket : Ticket)

def use (p : PendingRequests) : Use → PendingRequests
  | .operate operation => p.perform operation
  | .wait ticket => (p.wait ticket).2

/-- The requests in flight after some uses, of which the earliest is first. -/
def afterUses (uses : List Use) : PendingRequests := uses.foldl use {}

/-- The operations that a use comes to: a wait that is over drops its ticket. -/
def Use.operations (p : PendingRequests) : Use → List Operation
  | .operate operation => [operation]
  | .wait ticket => if (p.answer? ticket).isSome then [.drop ticket] else []

/-- The history of operations that some uses come to. -/
def historyOf (uses : List Use) : List Operation :=
  uses.foldl (fun history use => history ++ use.operations (after history)) []

/-- Uses in which tickets are dropped and waited for by their holders only. -/
inductive LawfulUses : List Use → Prop where
  | start : LawfulUses []
  | step {uses : List Use} {use : Use} : LawfulUses uses →
      (∀ ticket, use = .operate (.drop ticket) ∨ use = .wait ticket →
        Live (historyOf uses) ticket) →
      LawfulUses (uses ++ [use])

theorem historyOf_concat (uses : List Use) (use : Use) :
    historyOf (uses ++ [use]) =
      historyOf uses ++ use.operations (after (historyOf uses)) :=
  List.foldl_concat ..

theorem afterUses_concat (uses : List Use) (use : Use) :
    afterUses (uses ++ [use]) = (afterUses uses).use use :=
  List.foldl_concat ..

theorem after_operations (history : List Operation) (use : Use) :
    after (history ++ use.operations (after history)) =
      (after history).use use := by
  cases use with
  | operate operation => exact after_concat history operation
  | wait ticket =>
      rw [Use.operations, PendingRequests.use, PendingRequests.wait]
      cases (after history).answer? ticket with
      | none => exact congrArg after (List.append_nil history)
      | some answer => exact after_concat history (.drop ticket)

theorem after_historyOf (uses : List Use) :
    after (historyOf uses) = afterUses uses := by
  induction uses using List.reverseRecOn with
  | nil => rfl
  | append_singleton uses use ih =>
      rw [historyOf_concat, after_operations, ih, afterUses_concat]

theorem LawfulUses.lawful {uses : List Use} (h : LawfulUses uses) :
    Lawful (historyOf uses) := by
  induction h with
  | start => exact .start
  | @step uses use _ hheld ih =>
      rw [historyOf_concat]
      cases use with
      | operate operation =>
          apply ih.step
          rintro ticket rfl
          exact hheld ticket (.inl rfl)
      | wait ticket =>
          rw [Use.operations]
          split
          · apply ih.step
            rintro _ ⟨⟩
            exact hheld ticket (.inr rfl)
          · rwa [List.append_nil]

theorem LawfulUses.matches {uses : List Use} (h : LawfulUses uses) :
    Matches (historyOf uses) (afterUses uses) := by
  rw [← after_historyOf]
  exact h.lawful.matches_after

/-! ## Entries -/

section

variable {history : List Operation} {p : PendingRequests} {ticket : Ticket}

theorem Matches.entry_iff (h : Matches history p) (token : Token) :
    (∃ number, p.waiting.lookup token = some number) ↔
      ∃! ticket : Ticket, ticket.token = token ∧ Waits history ticket := by
  constructor
  · rintro ⟨number, hlookup⟩
    have hwaits : Waits history ⟨number, token⟩ := h.lookup_eq_some_iff.1 hlookup
    refine ⟨⟨number, token⟩, ⟨rfl, hwaits⟩, ?_⟩
    rintro other ⟨htoken, hother⟩
    exact h.eq_of_token hwaits hother htoken
  · rintro ⟨ticket, ⟨rfl, hwaits⟩, _⟩
    exact ⟨ticket.number, h.lookup_eq_some_iff.2 hwaits⟩

/-- The entries are the waiting tickets, each once. -/
theorem Matches.exists_tickets (h : Matches history p) :
    ∃ tickets : List Ticket, tickets.Nodup ∧
      (∀ ticket, ticket ∈ tickets ↔ Waits history ticket) ∧
      p.length = tickets.length := by
  have hdistinct : (p.waiting.map fun entry => Ticket.mk entry.2 entry.1).Nodup := by
    apply List.Nodup.of_map Ticket.token
    rw [List.map_map]
    exact h.distinct
  refine ⟨_, hdistinct, fun ticket => ?_, (List.length_map _).symm⟩
  rw [← h.mem_waiting, List.mem_map]
  constructor
  · rintro ⟨entry, hentry, rfl⟩
    exact hentry
  · intro hentry
    exact ⟨_, hentry, rfl⟩

/-- Only the entry of a dropped ticket itself goes. -/
theorem Matches.waiting_drop (h : Matches history p) (hlive : Live history ticket) :
    (p.drop ticket).waiting =
      p.waiting.filter (· ≠ (ticket.token, ticket.number)) := by
  rw [PendingRequests.drop]
  cases hfate : p.fates.lookup ticket.number with
  | some fate =>
      have hentry : ∀ entry ∈ p.waiting,
          entry ≠ (ticket.token, ticket.number) := by
        rintro entry hentry rfl
        have hnone := h.fate_of_waits ((h.mem_waiting ticket).1 hentry)
        rw [hfate] at hnone
        cases hnone
      exact (List.filter_eq_self.2 (by simpa using hentry)).symm
  | none =>
      have hwaits := h.waits_of_fate hlive hfate
      simp only [PendingRequests.remove, settle_of_waits h hwaits]
      apply List.filter_congr
      rintro ⟨token, number⟩ hentry
      have hother : Waits history ⟨number, token⟩ :=
        (h.mem_waiting ⟨number, token⟩).1 hentry
      have hentry_iff : token = ticket.token ↔
          (token, number) = (ticket.token, ticket.number) := by
        constructor
        · intro htoken
          rw [← h.eq_of_token hwaits hother htoken]
        · exact fun heq => (Prod.mk.inj heq).1
      rw [decide_eq_decide]
      exact not_congr hentry_iff

end

/-! ## The loss of the connection -/

/-- The connection was lost with a fault, and nobody waits any more. -/
structure LostWith (p : PendingRequests) (fault : Fault) : Prop where
  lost : p.lost = some fault
  waiting : p.waiting = []

section

variable {p : PendingRequests} {fault : Fault}

theorem LostWith.register (h : p.LostWith fault) (token : Token) :
    p.register token = (.error fault, p) :=
  register_of_lost h.lost

theorem LostWith.settle (h : p.LostWith fault) (token : Token) (fate : Fate) :
    p.settle token fate = p := by
  rw [PendingRequests.settle, h.waiting]
  rfl

theorem LostWith.drop (h : p.LostWith fault) (ticket : Ticket) :
    p.drop ticket = p := by
  rw [PendingRequests.drop, PendingRequests.remove, h.settle]
  cases p.fates.lookup ticket.number <;> rfl

/-- Later losses bring no other fault. -/
theorem LostWith.perform (h : p.LostWith fault) (operation : Operation) :
    (p.perform operation).LostWith fault := by
  cases operation with
  | register token =>
      rw [PendingRequests.perform, h.register]
      exact h
  | complete token payload =>
      rw [PendingRequests.perform, PendingRequests.complete, h.settle]
      exact h
  | remove token =>
      rw [PendingRequests.perform, PendingRequests.remove, h.settle]
      exact h
  | failAll later =>
      constructor
      · simp only [PendingRequests.perform, PendingRequests.failAll, h.lost]
        rfl
      · rfl
  | drop ticket =>
      rw [PendingRequests.perform, h.drop]
      exact h

theorem LostWith.use (h : p.LostWith fault) (use : Use) :
    (p.use use).LostWith fault := by
  cases use with
  | operate operation => exact h.perform operation
  | wait ticket =>
      rw [PendingRequests.use, PendingRequests.wait]
      cases p.answer? ticket with
      | none => exact h
      | some answer =>
          simp only [h.drop]
          exact h

theorem LostWith.foldl_use (h : p.LostWith fault) (uses : List Use) :
    (uses.foldl PendingRequests.use p).LostWith fault := by
  induction uses generalizing p with
  | nil => exact h
  | cons use rest ih => exact ih (h.use use)

theorem lost_settle (token : Token) (fate : Fate) :
    (p.settle token fate).lost = p.lost := by
  rw [settle]
  cases p.waiting.lookup token <;> rfl

theorem lost_register (token : Token) : (p.register token).2.lost = p.lost := by
  cases hlost : p.lost with
  | some fault => rw [register_of_lost hlost, hlost]
  | none =>
      cases hlookup : p.waiting.lookup token with
      | some number => rw [register_of_taken hlost hlookup, hlost]
      | none => rw [register_of_free hlost hlookup, hlost]

theorem lost_drop (ticket : Ticket) : (p.drop ticket).lost = p.lost := by
  rw [drop]
  cases p.fates.lookup ticket.number with
  | none => exact lost_settle _ _
  | some fate => rfl

/-- Nothing but a loss sets the fault of a loss. -/
theorem lost_use {use : Use} (huse : ∀ fault, use ≠ .operate (.failAll fault)) :
    (p.use use).lost = p.lost := by
  cases use with
  | operate operation =>
      cases operation with
      | register token => exact lost_register token
      | complete token payload => exact lost_settle _ _
      | remove token => exact lost_settle _ _
      | failAll fault => exact absurd rfl (huse fault)
      | drop ticket => exact lost_drop ticket
  | wait ticket =>
      rw [PendingRequests.use, wait]
      cases p.answer? ticket with
      | none => rfl
      | some answer => exact lost_drop ticket

theorem lost_afterUses {uses : List Use}
    (huses : ∀ fault, .operate (.failAll fault) ∉ uses) :
    (afterUses uses).lost = none := by
  induction uses using List.reverseRecOn with
  | nil => rfl
  | append_singleton uses use ih =>
      simp only [List.mem_append, List.mem_singleton, not_or] at huses
      rw [afterUses_concat, lost_use fun fault => Ne.symm (huses fault).2]
      exact ih fun fault => (huses fault).1

end

/-- Everything after the first loss keeps its fault and an empty table. -/
theorem lostWith_afterUses {earlier : List Use}
    (hfirst : ∀ other, .operate (.failAll other) ∉ earlier) (fault : Fault)
    (later : List Use) :
    (afterUses (earlier ++ .operate (.failAll fault) :: later)).LostWith fault := by
  have hlost : ((afterUses earlier).use (.operate (.failAll fault))).LostWith
      fault := by
    constructor
    · simp only [use, perform, failAll, lost_afterUses hfirst]
      rfl
    · rfl
  rw [afterUses, List.foldl_append, List.foldl_cons]
  exact hlost.foldl_use later

/-- After any uses there is an entry under a token exactly if exactly one ticket
for it is held and has been told nothing, and there are as many entries as such
tickets.  Dropping a ticket takes its own entry at most, and leaves that of every
other ticket where it was.  Since the first loss of the connection the table is
empty, and everyone who asks for a ticket gets the fault of that loss. -/
theorem LawfulUses.table_exact {uses : List Use} (h : LawfulUses uses) :
    (∀ token, (∃ number, (afterUses uses).waiting.lookup token = some number) ↔
      ∃! ticket : Ticket, ticket.token = token ∧
        Waits (historyOf uses) ticket) ∧
    (∃ tickets : List Ticket, tickets.Nodup ∧
      (∀ ticket, ticket ∈ tickets ↔ Waits (historyOf uses) ticket) ∧
      (afterUses uses).length = tickets.length) ∧
    (∀ ticket, Live (historyOf uses) ticket →
      ((afterUses uses).drop ticket).waiting =
        (afterUses uses).waiting.filter (· ≠ (ticket.token, ticket.number)) ∧
      ∀ other, Waits (historyOf uses) other → other ≠ ticket →
        (other.token, other.number) ∈ ((afterUses uses).drop ticket).waiting) ∧
    ∀ earlier fault later,
      uses = earlier ++ .operate (.failAll fault) :: later →
      (∀ other, .operate (.failAll other) ∉ earlier) →
      (afterUses uses).waiting = [] ∧
      ∀ token, (afterUses uses).register token =
        (.error fault, afterUses uses) := by
  have hmatches := h.matches
  refine ⟨hmatches.entry_iff, hmatches.exists_tickets, ?_, ?_⟩
  · intro ticket hlive
    have hdrop := hmatches.waiting_drop hlive
    refine ⟨hdrop, fun other hother hne => ?_⟩
    rw [hdrop, List.mem_filter]
    refine ⟨(hmatches.mem_waiting other).2 hother, ?_⟩
    apply decide_eq_true
    intro hentry
    obtain ⟨htoken, hnumber⟩ := Prod.mk.inj hentry
    cases other
    cases ticket
    cases htoken
    cases hnumber
    exact hne rfl
  · rintro earlier fault later rfl hfirst
    have hlost := lostWith_afterUses hfirst fault later
    exact ⟨hlost.waiting, hlost.register⟩

/-- A token is taken again before the holder of its first ticket has asked for
the answer. -/
def overtaken : List Use :=
  [.operate (.register 1), .operate (.complete 1 [7]), .operate (.register 1),
    .wait ⟨0, 1⟩]

theorem lawfulUses_overtaken : LawfulUses overtaken := by
  have hfree : ∀ {uses : List Use} {operation : Operation}, LawfulUses uses →
      (∀ ticket, operation ≠ .drop ticket) →
      LawfulUses (uses ++ [.operate operation]) := by
    intro uses operation huses hoperation
    apply huses.step
    rintro ticket (hdrop | hwait)
    · cases hdrop
      exact absurd rfl (hoperation ticket)
    · cases hwait
  have hbefore : LawfulUses [.operate (.register 1),
      .operate (.complete 1 [7]), .operate (.register 1)] :=
    hfree (hfree (hfree .start (by simp)) (by simp)) (by simp)
  apply hbefore.step
  rintro ticket (hdrop | hwait)
  · cases hdrop
  · cases hwait
    exact ⟨[.complete 1 [7], .register 1], ⟨[], rfl, rfl⟩, by simp⟩

/-- The late wait uses up the first ticket and leaves the second one alone. -/
theorem table_exact_overtaken :
    LawfulUses overtaken ∧
      ∃! ticket : Ticket, ticket.token = 1 ∧
        Waits (historyOf overtaken) ticket := by
  have hexact := lawfulUses_overtaken.table_exact
  exact ⟨lawfulUses_overtaken, (hexact.1 1).1 ⟨1, rfl⟩⟩

end PendingRequests

end DocumentQuery
