import DocumentQuery.Client.Pending
import Mathlib.Tactic

/-!
# Histories of requests in flight

Tokens are used again and again, and an entry of the table is found by its
token alone.  What a ticket is due can only be told from the history: it is
what the first operation brought that concerned its token after the ticket was
given out.  The table agrees with the history at all times.  It holds exactly
the tickets for which nothing has come yet, no two of them under one token, and
it remembers for every other ticket what came first.
-/

namespace DocumentQuery

/-- What the holder of a ticket for a token is told. -/
def Fate.result (token : Token) : Fate → Except Fault Bytes
  | .answered payload => .ok payload
  | .failed fault => .error fault
  | .removed => .error (.connection (.dropped token))

namespace PendingRequests

/-- One use that is made of the requests in flight. -/
inductive Operation where
  | register (token : Token)
  | complete (token : Token) (payload : Bytes)
  | remove (token : Token)
  | failAll (fault : Fault)
  | drop (ticket : Ticket)

def perform (p : PendingRequests) : Operation → PendingRequests
  | .register token => (p.register token).2
  | .complete token payload => (p.complete token payload).2
  | .remove token => p.remove token
  | .failAll fault => p.failAll fault
  | .drop ticket => p.drop ticket

/-- The requests in flight after a history, which has the earliest operation
first. -/
def after (history : List Operation) : PendingRequests :=
  history.foldl perform {}

theorem after_concat (history : List Operation) (operation : Operation) :
    after (history ++ [operation]) = (after history).perform operation :=
  List.foldl_concat ..

/-! ## What a history says about a ticket -/

/-- The ticket was given out in the history, and `later` has happened since. -/
def Since (history : List Operation) (ticket : Ticket)
    (later : List Operation) : Prop :=
  ∃ earlier, history = earlier ++ .register ticket.token :: later ∧
    ((after earlier).register ticket.token).1 = .ok ticket

/-- What an operation brings to whoever waits under a token. -/
def brings? (token : Token) : Operation → Option (Except Fault Bytes)
  | .complete other payload => if other = token then some (.ok payload) else none
  | .remove other =>
    if other = token then some (.error (.connection (.dropped token))) else none
  | .failAll fault => some (.error fault)
  | .register _ => none
  | .drop _ => none

/-- What the first of some operations brings that brings something. -/
def resolution (token : Token) (later : List Operation) :
    Option (Except Fault Bytes) :=
  later.findSome? (brings? token)

/-- The ticket was given out and has not been dropped. -/
def Live (history : List Operation) (ticket : Ticket) : Prop :=
  ∃ later, Since history ticket later ∧ Operation.drop ticket ∉ later

/-- The ticket was given out and has not been dropped, and nothing has come for
it. -/
def Waits (history : List Operation) (ticket : Ticket) : Prop :=
  ∃ later, Since history ticket later ∧ Operation.drop ticket ∉ later ∧
    resolution ticket.token later = none

/-- A history in which tickets are dropped by their holders only. -/
inductive Lawful : List Operation → Prop where
  | start : Lawful []
  | step {history : List Operation} {operation : Operation} : Lawful history →
      (∀ ticket, operation = .drop ticket → Live history ticket) →
      Lawful (history ++ [operation])

theorem Since.append {history later : List Operation} {ticket : Ticket}
    (h : Since history ticket later) (more : List Operation) :
    Since (history ++ more) ticket (later ++ more) := by
  obtain ⟨earlier, rfl, hgiven⟩ := h
  exact ⟨earlier, by simp, hgiven⟩

theorem resolution_append (token : Token) (later more : List Operation) :
    resolution token (later ++ more) =
      (resolution token later).or (resolution token more) :=
  List.findSome?_append

theorem resolution_concat (token : Token) (later : List Operation)
    (operation : Operation) :
    resolution token (later ++ [operation]) =
      (resolution token later).or (brings? token operation) := by
  rw [resolution_append]
  congr 1
  rw [resolution, List.findSome?_cons]
  cases brings? token operation <;> rfl

theorem since_concat {history later : List Operation} {operation : Operation}
    {ticket : Ticket} :
    Since (history ++ [operation]) ticket later ↔
      (later = [] ∧ operation = .register ticket.token ∧
        ((after history).register ticket.token).1 = .ok ticket) ∨
      ∃ later', later = later' ++ [operation] ∧ Since history ticket later' := by
  constructor
  · rintro ⟨earlier, hsplit, hgiven⟩
    rcases List.eq_nil_or_concat later with rfl | ⟨later', last, rfl⟩
    · obtain ⟨rfl, hlast⟩ := List.append_inj' hsplit rfl
      exact .inl ⟨rfl, List.head_eq_of_cons_eq hlast, hgiven⟩
    · rw [List.concat_eq_append, ← List.cons_append, ← List.append_assoc]
        at hsplit
      obtain ⟨rfl, hlast⟩ := List.append_inj' hsplit rfl
      cases hlast
      exact .inr ⟨later', List.concat_eq_append, earlier, rfl, hgiven⟩
  · rintro (⟨rfl, rfl, hgiven⟩ | ⟨later', rfl, hsince⟩)
    · exact ⟨history, rfl, hgiven⟩
    · exact hsince.append [operation]

/-- A ticket waits on through what neither drops it nor brings it anything. -/
theorem Waits.concat {history : List Operation} {operation : Operation}
    {ticket : Ticket} (h : Waits history ticket)
    (hdrop : operation ≠ .drop ticket)
    (hbrings : brings? ticket.token operation = none) :
    Waits (history ++ [operation]) ticket := by
  obtain ⟨later, hsince, hlive, hnone⟩ := h
  refine ⟨_, hsince.append [operation], ?_, ?_⟩
  · simp only [List.mem_append, List.mem_singleton, not_or]
    exact ⟨hlive, hdrop.symm⟩
  · rw [resolution_concat, hnone, hbrings]
    rfl

/-- The operation gives no ticket out. -/
def Quiet (p : PendingRequests) (operation : Operation) : Prop :=
  ∀ ticket : Ticket, operation = .register ticket.token →
    (p.register ticket.token).1 ≠ .ok ticket

theorem Quiet.since_iff {history later : List Operation} {operation : Operation}
    (hquiet : Quiet (after history) operation) {ticket : Ticket} :
    Since (history ++ [operation]) ticket later ↔
      ∃ later', later = later' ++ [operation] ∧ Since history ticket later' := by
  rw [since_concat, or_iff_right]
  rintro ⟨_, hoperation, hgiven⟩
  exact hquiet ticket hoperation hgiven

theorem Quiet.waits_iff {history : List Operation} {operation : Operation}
    (hquiet : Quiet (after history) operation) {ticket : Ticket} :
    Waits (history ++ [operation]) ticket ↔
      Waits history ticket ∧ operation ≠ .drop ticket ∧
        brings? ticket.token operation = none := by
  constructor
  · rintro ⟨later, hlater, hlive, hnone⟩
    obtain ⟨later', rfl, hsince⟩ := hquiet.since_iff.1 hlater
    rw [resolution_concat, Option.or_eq_none_iff] at hnone
    simp only [List.mem_append, List.mem_singleton, not_or] at hlive
    exact ⟨⟨later', hsince, hlive.1, hnone.1⟩, Ne.symm hlive.2, hnone.2⟩
  · rintro ⟨hwaits, hdrop, hbrings⟩
    exact hwaits.concat hdrop hbrings

/-! ## The table -/

theorem answer?_eq (p : PendingRequests) (ticket : Ticket) :
    p.answer? ticket =
      (p.fates.lookup ticket.number).map (Fate.result ticket.token) := by
  unfold answer?
  cases p.fates.lookup ticket.number with
  | none => rfl
  | some fate => cases fate <;> rfl

theorem answer?_eq_none_iff {p : PendingRequests} {ticket : Ticket} :
    p.answer? ticket = none ↔ p.fates.lookup ticket.number = none := by
  rw [answer?_eq, Option.map_eq_none_iff]

/-- The table agrees with the history. -/
structure Matches (history : List Operation) (p : PendingRequests) : Prop where
  mem_waiting : ∀ ticket : Ticket,
    (ticket.token, ticket.number) ∈ p.waiting ↔ Waits history ticket
  distinct : (p.waiting.map Prod.fst).Nodup
  lost : p.lost.isSome ↔ ∃ fault, Operation.failAll fault ∈ history
  number_lt : ∀ ticket later, Since history ticket later →
    ticket.number < p.nextNumber
  fresh : ∀ number, p.nextNumber ≤ number → p.fates.lookup number = none
  unique : ∀ ticket later, Since history ticket later →
    ∀ other later', Since history other later' →
      ticket.number = other.number → ticket = other
  answers : ∀ ticket later, Since history ticket later →
    Operation.drop ticket ∉ later →
      p.answer? ticket = resolution ticket.token later

section

variable {history later : List Operation} {p : PendingRequests}
  {ticket other : Ticket}

theorem lookup_eq_some_iff_mem {α β : Type} [BEq α] [LawfulBEq α]
    {entries : List (α × β)} (hdistinct : (entries.map Prod.fst).Nodup) {a : α}
    {b : β} : entries.lookup a = some b ↔ (a, b) ∈ entries := by
  induction entries with
  | nil => simp
  | cons first rest ih =>
      obtain ⟨a', b'⟩ := first
      rw [List.map_cons, List.nodup_cons] at hdistinct
      by_cases ha : a = a'
      · subst ha
        have hrest : (a, b) ∉ rest := fun hmem =>
          hdistinct.1 (List.mem_map.2 ⟨_, hmem, rfl⟩)
        simp [hrest, eq_comm]
      · rw [List.lookup_cons, beq_false_of_ne ha, ih hdistinct.2]
        simp [ha]

theorem Matches.lookup_eq_some_iff (h : Matches history p) :
    p.waiting.lookup ticket.token = some ticket.number ↔ Waits history ticket := by
  rw [lookup_eq_some_iff_mem h.distinct, h.mem_waiting]

theorem Matches.lookup_eq_none_iff (h : Matches history p) {token : Token} :
    p.waiting.lookup token = none ↔
      ∀ ticket, Waits history ticket → ticket.token ≠ token := by
  rw [Option.eq_none_iff_forall_ne_some]
  constructor
  · rintro hnone ticket hwaits rfl
    exact hnone _ (h.lookup_eq_some_iff.2 hwaits)
  · intro hnone number hlookup
    have hwaits : Waits history ⟨number, token⟩ :=
      h.lookup_eq_some_iff.1 hlookup
    exact hnone _ hwaits rfl

/-- No two waiting tickets have the same token. -/
theorem Matches.eq_of_token (h : Matches history p) (hwaits : Waits history ticket)
    (hother : Waits history other) (htoken : other.token = ticket.token) :
    other = ticket := by
  have hnumber := h.lookup_eq_some_iff.2 hother
  rw [htoken, h.lookup_eq_some_iff.2 hwaits] at hnumber
  cases ticket
  cases other
  simp_all

theorem Matches.eq_of_number (h : Matches history p) (hwaits : Waits history ticket)
    (hsince : Since history other later) (hnumber : other.number = ticket.number) :
    other = ticket := by
  obtain ⟨_, hticket, _⟩ := hwaits
  exact h.unique other later hsince ticket _ hticket hnumber

theorem Matches.fate_of_waits (h : Matches history p)
    (hwaits : Waits history ticket) : p.fates.lookup ticket.number = none := by
  obtain ⟨later, hsince, hlive, hnone⟩ := hwaits
  rw [← answer?_eq_none_iff, h.answers ticket later hsince hlive, hnone]

theorem Matches.waits_of_fate (h : Matches history p) (hlive : Live history ticket)
    (hfate : p.fates.lookup ticket.number = none) : Waits history ticket := by
  obtain ⟨later, hsince, hlive⟩ := hlive
  refine ⟨later, hsince, hlive, ?_⟩
  rw [← h.answers ticket later hsince hlive, answer?_eq_none_iff, hfate]

/-! ## What one operation does -/

/-- An operation that concerns no waiting ticket leaves the table as it is. -/
theorem Matches.unchanged (h : Matches history (after history))
    {operation : Operation} (hquiet : Quiet (after history) operation)
    (hlost : ∀ fault, operation ≠ .failAll fault)
    (hidle : ∀ ticket, Waits history ticket → operation ≠ .drop ticket ∧
      brings? ticket.token operation = none) :
    Matches (history ++ [operation]) (after history) where
  mem_waiting ticket := by
    rw [h.mem_waiting, hquiet.waits_iff, and_iff_left_of_imp (hidle ticket)]
  distinct := h.distinct
  lost := by
    rw [h.lost]
    refine exists_congr fun fault => ?_
    rw [List.mem_append, List.mem_singleton, or_iff_left (hlost fault).symm]
  number_lt ticket later hsince := by
    obtain ⟨later', _, hbefore⟩ := hquiet.since_iff.1 hsince
    exact h.number_lt ticket later' hbefore
  fresh := h.fresh
  unique ticket later hsince other later' hother := by
    obtain ⟨_, _, hbefore⟩ := hquiet.since_iff.1 hsince
    obtain ⟨_, _, hbefore'⟩ := hquiet.since_iff.1 hother
    exact h.unique ticket _ hbefore other _ hbefore'
  answers ticket later hsince hlive := by
    obtain ⟨later', rfl, hbefore⟩ := hquiet.since_iff.1 hsince
    rw [List.mem_append, not_or] at hlive
    rw [h.answers ticket later' hbefore hlive.1, resolution_concat]
    cases hresult : resolution ticket.token later' with
    | some result => rfl
    | none =>
        rw [(hidle ticket ⟨later', hbefore, hlive.1, hresult⟩).2]
        rfl

theorem settle_of_waits (h : Matches history p) (hwaits : Waits history ticket)
    (fate : Fate) :
    p.settle ticket.token fate = { p with
      waiting := p.waiting.filter (·.1 ≠ ticket.token)
      fates := (ticket.number, fate) :: p.fates } := by
  rw [settle, h.lookup_eq_some_iff.2 hwaits]

/-- An operation that concerns one waiting ticket takes it from the table. -/
theorem Matches.settle (h : Matches history (after history))
    (hwaits : Waits history ticket) {operation : Operation} {fate : Fate}
    (hquiet : Quiet (after history) operation)
    (hlost : ∀ fault, operation ≠ .failAll fault)
    (hidle : ∀ other, Waits history other → other ≠ ticket →
      operation ≠ .drop other ∧ brings? other.token operation = none)
    (hsettles : operation = .drop ticket ∨
      brings? ticket.token operation = some (fate.result ticket.token)) :
    Matches (history ++ [operation])
      ((after history).settle ticket.token fate) := by
  rw [settle_of_waits h hwaits]
  have hwaits_iff : ∀ other, Waits (history ++ [operation]) other ↔
      Waits history other ∧ other.token ≠ ticket.token := by
    intro other
    rw [hquiet.waits_iff]
    refine and_congr_right fun hother => ?_
    constructor
    · rintro ⟨hdrop, hbrings⟩ htoken
      obtain rfl := h.eq_of_token hwaits hother htoken
      rcases hsettles with hsettles | hsettles
      · exact hdrop hsettles
      · rw [hsettles] at hbrings
        cases hbrings
    · intro htoken
      exact hidle other hother fun heq => htoken (by rw [heq])
  constructor
  · intro other
    rw [hwaits_iff, ← h.mem_waiting]
    simp
  · exact h.distinct.sublist (List.filter_sublist.map Prod.fst)
  · show (after history).lost.isSome ↔ _
    rw [h.lost]
    refine exists_congr fun fault => ?_
    rw [List.mem_append, List.mem_singleton, or_iff_left (hlost fault).symm]
  · intro other later hsince
    obtain ⟨later', _, hbefore⟩ := hquiet.since_iff.1 hsince
    exact h.number_lt other later' hbefore
  · intro number hnumber
    obtain ⟨later, hsince, _⟩ := hwaits
    have hlt := h.number_lt ticket later hsince
    have hne : number ≠ ticket.number := by
      have hle : (after history).nextNumber ≤ number := hnumber
      omega
    rw [List.lookup_cons, beq_false_of_ne hne]
    exact h.fresh number hnumber
  · intro other later hsince another later' hother
    obtain ⟨_, _, hbefore⟩ := hquiet.since_iff.1 hsince
    obtain ⟨_, _, hbefore'⟩ := hquiet.since_iff.1 hother
    exact h.unique other _ hbefore another _ hbefore'
  · intro other later hsince hlive
    obtain ⟨later', rfl, hbefore⟩ := hquiet.since_iff.1 hsince
    simp only [List.mem_append, List.mem_singleton, not_or] at hlive
    have hanswer := h.answers other later' hbefore hlive.1
    rw [resolution_concat, ← hanswer, answer?_eq, answer?_eq, List.lookup_cons]
    by_cases hnumber : other.number = ticket.number
    · obtain rfl := h.eq_of_number hwaits hbefore hnumber
      have hbrings := hsettles.resolve_left (Ne.symm hlive.2)
      rw [h.fate_of_waits hwaits, beq_self_eq_true, hbrings]
      rfl
    · rw [beq_false_of_ne hnumber]
      cases hfate : (after history).fates.lookup other.number with
      | some fate => rfl
      | none =>
          have hother := h.waits_of_fate ⟨later', hbefore, hlive.1⟩ hfate
          have hne : other ≠ ticket := fun heq => hnumber (by rw [heq])
          rw [(hidle other hother hne).2]
          rfl

theorem mem_waiting_numbers (h : Matches history p) {number : Nat} :
    number ∈ p.waiting.map Prod.snd ↔
      ∃ ticket, Waits history ticket ∧ ticket.number = number := by
  rw [List.mem_map]
  constructor
  · rintro ⟨⟨token, number⟩, hmem, rfl⟩
    exact ⟨⟨number, token⟩, (h.mem_waiting ⟨number, token⟩).1 hmem, rfl⟩
  · rintro ⟨ticket, hwaits, rfl⟩
    exact ⟨_, (h.mem_waiting ticket).2 hwaits, rfl⟩

theorem lookup_failed (waiting : List (Token × Nat)) (fault : Fault)
    (number : Nat) :
    (waiting.map fun (_, number) => (number, Fate.failed fault)).lookup number =
      if number ∈ waiting.map Prod.snd then some (.failed fault) else none := by
  induction waiting with
  | nil => rfl
  | cons first rest ih =>
      rw [List.map_cons, List.map_cons, List.lookup_cons, ih]
      by_cases hnumber : number = first.2
      · simp [hnumber]
      · rw [beq_false_of_ne hnumber]
        simp only [List.mem_cons, hnumber, false_or]

/-- The loss of the connection concerns all waiting tickets. -/
theorem Matches.failAll (h : Matches history (after history)) (fault : Fault) :
    Matches (history ++ [.failAll fault]) ((after history).failAll fault) := by
  have hquiet : Quiet (after history) (.failAll fault) := by
    rintro ticket ⟨⟩
  have hnone : ∀ ticket, ¬ Waits (history ++ [.failAll fault]) ticket := by
    intro ticket hwaits
    cases (hquiet.waits_iff.1 hwaits).2.2
  constructor
  · intro ticket
    exact iff_of_false List.not_mem_nil (hnone ticket)
  · exact List.nodup_nil
  · refine iff_of_true ?_ ⟨fault, by simp⟩
    show ((after history).lost <|> some fault).isSome
    cases (after history).lost <;> rfl
  · intro ticket later hsince
    obtain ⟨later', _, hbefore⟩ := hquiet.since_iff.1 hsince
    exact h.number_lt ticket later' hbefore
  · intro number hnumber
    have hold : number ∉ (after history).waiting.map Prod.snd := by
      rw [mem_waiting_numbers h]
      rintro ⟨ticket, ⟨later, hsince, _⟩, rfl⟩
      exact absurd (h.number_lt ticket later hsince) (Nat.not_lt.2 hnumber)
    show List.lookup number (_ ++ _) = none
    rw [List.lookup_append, lookup_failed, if_neg hold]
    exact h.fresh number hnumber
  · intro ticket later hsince other later' hother
    obtain ⟨_, _, hbefore⟩ := hquiet.since_iff.1 hsince
    obtain ⟨_, _, hbefore'⟩ := hquiet.since_iff.1 hother
    exact h.unique ticket _ hbefore other _ hbefore'
  · intro ticket later hsince hlive
    obtain ⟨later', rfl, hbefore⟩ := hquiet.since_iff.1 hsince
    rw [List.mem_append, not_or] at hlive
    have hanswer := h.answers ticket later' hbefore hlive.1
    rw [resolution_concat, ← hanswer, answer?_eq, answer?_eq]
    show Option.map _ (List.lookup ticket.number (_ ++ _)) = _
    rw [List.lookup_append, lookup_failed]
    cases hfate : (after history).fates.lookup ticket.number with
    | none =>
        have hwaits := h.waits_of_fate ⟨later', hbefore, hlive.1⟩ hfate
        rw [if_pos ((mem_waiting_numbers h).2 ⟨ticket, hwaits, rfl⟩)]
        rfl
    | some fate =>
        rw [if_neg]
        · rfl
        · rw [mem_waiting_numbers h]
          rintro ⟨other, hother, hnumber⟩
          obtain rfl := h.eq_of_number hother hbefore hnumber.symm
          rw [h.fate_of_waits hother] at hfate
          cases hfate

/-! ## Giving tickets out -/

theorem register_of_free {token : Token} (hlost : p.lost = none)
    (hfree : p.waiting.lookup token = none) :
    p.register token = (.ok ⟨p.nextNumber, token⟩,
      { p with
        waiting := (token, p.nextNumber) :: p.waiting
        nextNumber := p.nextNumber + 1 }) := by
  rw [register, hlost, hfree]

theorem register_of_lost {token : Token} {fault : Fault}
    (hlost : p.lost = some fault) : p.register token = (.error fault, p) := by
  rw [register, hlost]

theorem register_of_taken {token : Token} {number : Nat} (hlost : p.lost = none)
    (htaken : p.waiting.lookup token = some number) :
    p.register token = (.error (.connection (.alreadyWaiting token)), p) := by
  rw [register, hlost, htaken]

/-- A new ticket has a number of its own and nothing has come for it. -/
theorem Matches.register (h : Matches history (after history)) {token : Token}
    (hlost : (after history).lost = none)
    (hfree : (after history).waiting.lookup token = none) :
    Matches (history ++ [.register token]) ((after history).register token).2 := by
  have hregister := register_of_free hlost hfree
  have hsince_iff : ∀ ticket later,
      Since (history ++ [.register token]) ticket later ↔
        (later = [] ∧ ticket = ⟨(after history).nextNumber, token⟩) ∨
        ∃ later', later = later' ++ [.register token] ∧
          Since history ticket later' := by
    intro ticket later
    rw [since_concat]
    refine or_congr_left (and_congr_right fun _ => ?_)
    constructor
    · rintro ⟨htoken, hgiven⟩
      rw [← Operation.register.inj htoken, hregister] at hgiven
      exact (Except.ok.inj hgiven).symm
    · rintro rfl
      exact ⟨rfl, by rw [hregister]⟩
  have hlt : ∀ ticket later, Since history ticket later →
      ticket.number ≠ (after history).nextNumber := by
    intro ticket later hsince
    exact (h.number_lt ticket later hsince).ne
  have hwaits_iff : ∀ ticket, Waits (history ++ [.register token]) ticket ↔
      ticket = ⟨(after history).nextNumber, token⟩ ∨ Waits history ticket := by
    intro ticket
    constructor
    · rintro ⟨later, hsince, hlive, hnone⟩
      rcases (hsince_iff _ _).1 hsince with ⟨rfl, rfl⟩ | ⟨later', rfl, hbefore⟩
      · exact .inl rfl
      · rw [resolution_concat, Option.or_eq_none_iff] at hnone
        rw [List.mem_append, not_or] at hlive
        exact .inr ⟨later', hbefore, hlive.1, hnone.1⟩
    · rintro (rfl | hwaits)
      · exact ⟨[], (hsince_iff _ _).2 (.inl ⟨rfl, rfl⟩), List.not_mem_nil, rfl⟩
      · exact hwaits.concat (by rintro ⟨⟩) rfl
  rw [hregister]
  constructor
  · intro ticket
    rw [hwaits_iff, ← h.mem_waiting, List.mem_cons]
    cases ticket
    simp [and_comm]
  · rw [List.map_cons, List.nodup_cons]
    refine ⟨?_, h.distinct⟩
    intro hmem
    obtain ⟨⟨token', number⟩, hentry, rfl⟩ := List.mem_map.1 hmem
    rw [(lookup_eq_some_iff_mem h.distinct).2 hentry] at hfree
    cases hfree
  · show (after history).lost.isSome ↔ _
    rw [h.lost]
    refine exists_congr fun fault => ?_
    simp
  · intro ticket later hsince
    show ticket.number < (after history).nextNumber + 1
    rcases (hsince_iff _ _).1 hsince with ⟨_, rfl⟩ | ⟨later', _, hbefore⟩
    · exact Nat.lt_succ_self _
    · exact (h.number_lt ticket later' hbefore).trans (Nat.lt_succ_self _)
  · intro number hnumber
    exact h.fresh number ((Nat.le_succ _).trans hnumber)
  · intro ticket later hsince other later' hother hnumber
    rcases (hsince_iff _ _).1 hsince with ⟨_, rfl⟩ | ⟨_, _, hbefore⟩ <;>
      rcases (hsince_iff _ _).1 hother with ⟨_, rfl⟩ | ⟨_, _, hbefore'⟩
    · rfl
    · exact (hlt _ _ hbefore' hnumber.symm).elim
    · exact (hlt _ _ hbefore hnumber).elim
    · exact h.unique ticket _ hbefore other _ hbefore' hnumber
  · intro ticket later hsince hlive
    show (after history).answer? ticket = _
    rcases (hsince_iff _ _).1 hsince with ⟨rfl, rfl⟩ | ⟨later', rfl, hbefore⟩
    · exact answer?_eq_none_iff.2 (h.fresh _ le_rfl)
    · rw [List.mem_append, not_or] at hlive
      rw [h.answers ticket later' hbefore hlive.1, resolution_concat]
      exact (Option.or_none).symm

end

end PendingRequests

end DocumentQuery
