import DocumentQuery.Proofs.ScopeSimulation

/-!
# Histories of scopes

Scopes are opened, parameters are bound in them and looked up again, in any
order.  What a lookup finds can be told from the history alone: it is the number
that the last attempt to bind the parameter drew in the nearest scope that binds
it.  An attempt that fails, because the parameter is bound there already, draws
a number as well.  The parameter keeps it, and it is drawn once more by the next
attempt that succeeds.
-/

namespace DocumentQuery

namespace Scopes

/-- One call that is made of the scopes. -/
inductive Call where
  | child (parent : Nat)
  | bind (scope : Nat) (parameter : NodeId)
  | resolve (scope : Nat) (parameter : NodeId)

/-- What a call gives back. -/
inductive Answer where
  | opened (scope : Nat)
  | bound (result : Except BuildFault Nat)
  | found (result : Except BuildFault (Option Nat))

def Call.scope : Call → Nat
  | .child scope | .bind scope _ | .resolve scope _ => scope

def perform (s : Scopes) : Call → Answer × Scopes
  | .child parent => (.opened (s.child parent).1, (s.child parent).2)
  | .bind scope p => (.bound (s.bind scope p).1, (s.bind scope p).2)
  | .resolve scope p => (.found (s.resolve scope p), s)

/-- The scopes after a history, which has the earliest call first. -/
def after (history : List Call) : Scopes :=
  history.foldl (fun s call => (s.perform call).2) start

def answer (history : List Call) (call : Call) : Answer :=
  ((after history).perform call).1

/-! ## What a history says -/

/-- The call was made in the history, and this is what it gave back. -/
def Gave (history : List Call) (call : Call) (given : Answer) : Prop :=
  ∃ earlier later, history = earlier ++ call :: later ∧ answer earlier call = given

/-- A scope that can be referred to: the outermost one, or one that was
opened. -/
def Known (history : List Call) (scope : Nat) : Prop :=
  scope = root ∨ ∃ parent, Gave history (.child parent) (.opened scope)

/-- A history in which all calls refer to scopes that can be referred to. -/
inductive Lawful : List Call → Prop where
  | start : Lawful []
  | step {history : List Call} {call : Call} : Lawful history →
      Known history call.scope → Lawful (history ++ [call])

def Binds (history : List Call) (scope : Nat) (p : NodeId) : Prop :=
  ∃ number, Gave history (.bind scope p) (.bound (.ok number))

/-- The nearest scope that binds the parameter, from one scope on outwards. -/
inductive Nearest (history : List Call) (p : NodeId) :
    Nat → Option Nat → Prop where
  | here {scope : Nat} :
      Binds history scope p → Nearest history p scope (some scope)
  | outer {scope parent : Nat} {found : Option Nat} :
      ¬ Binds history scope p → Gave history (.child parent) (.opened scope) →
      Nearest history p parent found → Nearest history p scope found
  | nowhere : ¬ Binds history root p → Nearest history p root none

def Answer.drawn : Answer → List Nat
  | .bound (.ok number) => [number]
  | _ => []

/-- The numbers that calls give back to whoever binds parameters, in the order
of the calls. -/
def drawnFrom (s : Scopes) : List Call → List Nat
  | [] => []
  | call :: rest =>
    (s.perform call).1.drawn ++ drawnFrom (s.perform call).2 rest

def drawn (history : List Call) : List Nat := drawnFrom start history

/-- The last attempt to bind the parameter in the scope left it with the number:
the attempt gave the number back, or it failed and the number is the one to be
given back next. -/
def LeftWith (history : List Call) (scope : Nat) (p : NodeId) (number : Nat) :
    Prop :=
  ∃ earlier later, history = earlier ++ .bind scope p :: later ∧
    Call.bind scope p ∉ later ∧
    (answer earlier (.bind scope p) = .bound (.ok number) ∨
      answer earlier (.bind scope p) = .bound (.error .boundTwice) ∧
        number = (drawn earlier).length + 1)

theorem after_concat (history : List Call) (call : Call) :
    after (history ++ [call]) = ((after history).perform call).2 :=
  List.foldl_concat ..

theorem gave_concat {history : List Call} {last call : Call} {given : Answer} :
    Gave (history ++ [last]) call given ↔
      Gave history call given ∨ last = call ∧ answer history call = given := by
  constructor
  · rintro ⟨earlier, later, hsplit, hgiven⟩
    rcases List.eq_nil_or_concat later with rfl | ⟨later, other, rfl⟩
    · obtain ⟨rfl, hlast⟩ := List.append_inj' hsplit rfl
      exact .inr ⟨List.head_eq_of_cons_eq hlast, hgiven⟩
    · rw [List.concat_eq_append, ← List.cons_append, ← List.append_assoc]
        at hsplit
      obtain ⟨rfl, _⟩ := List.append_inj' hsplit rfl
      exact .inl ⟨earlier, later, rfl, hgiven⟩
  · rintro (⟨earlier, later, rfl, hgiven⟩ | ⟨rfl, hgiven⟩)
    · exact ⟨earlier, later ++ [last], by simp, hgiven⟩
    · exact ⟨history, [], rfl, hgiven⟩

theorem gave_child_concat {history : List Call} {last : Call}
    (hlast : ∀ parent, last ≠ .child parent) {parent : Nat} {given : Answer} :
    Gave (history ++ [last]) (.child parent) given ↔
      Gave history (.child parent) given := by
  rw [gave_concat]
  exact or_iff_left fun h => hlast parent h.1

theorem drawnFrom_concat (s : Scopes) (history : List Call) (call : Call) :
    drawnFrom s (history ++ [call]) =
      drawnFrom s history ++
        ((history.foldl (fun s call => (s.perform call).2) s).perform call).1.drawn := by
  induction history generalizing s with
  | nil => exact List.append_nil _
  | cons first rest ih =>
      rw [List.cons_append, drawnFrom, drawnFrom, List.foldl_cons, ih,
        List.append_assoc]

theorem drawn_concat (history : List Call) (call : Call) :
    drawn (history ++ [call]) = drawn history ++ (answer history call).drawn :=
  drawnFrom_concat ..

theorem binds_concat {history : List Call} {last : Call} {scope : Nat}
    {p : NodeId} :
    Binds (history ++ [last]) scope p ↔ Binds history scope p ∨
      last = .bind scope p ∧
        ∃ number, answer history last = .bound (.ok number) := by
  simp only [Binds, gave_concat, exists_or]
  refine or_congr_right ⟨?_, ?_⟩
  · rintro ⟨number, rfl, hgiven⟩
    exact ⟨rfl, number, hgiven⟩
  · rintro ⟨rfl, number, hgiven⟩
    exact ⟨number, rfl, hgiven⟩

theorem LeftWith.concat {history : List Call} {last : Call} {scope : Nat}
    {p : NodeId} {number : Nat} (h : LeftWith history scope p number)
    (hlast : last ≠ .bind scope p) :
    LeftWith (history ++ [last]) scope p number := by
  obtain ⟨earlier, later, rfl, hlater, hleft⟩ := h
  refine ⟨earlier, later ++ [last], by simp, ?_, hleft⟩
  rw [List.mem_append, List.mem_singleton]
  rintro (hmem | rfl)
  · exact hlater hmem
  · exact hlast rfl

/-! ## What one call changes -/

/-- The scope around a scope, for a scope that exists. -/
def parentOf? (s : Scopes) (scope : Nat) : Option (Option Nat) :=
  s.scopes[scope]?.map Scope.parent

/-- The number of a parameter in one scope, not looking further. -/
def numberIn? (s : Scopes) (scope : Nat) (p : NodeId) : Option Nat :=
  s.scopes[scope]?.bind fun found => found.numbers.lookup p

theorem parentOf?_eq_none_iff {s : Scopes} {scope : Nat} :
    s.parentOf? scope = none ↔ s.scopes.length ≤ scope := by
  rw [parentOf?, Option.map_eq_none_iff, List.getElem?_eq_none_iff]

theorem lt_length_of_parentOf? {s : Scopes} {scope : Nat} {parent : Option Nat}
    (h : s.parentOf? scope = some parent) : scope < s.scopes.length := by
  by_contra hge
  rw [parentOf?_eq_none_iff.2 (Nat.le_of_not_lt hge)] at h
  cases h

theorem parentOf?_child (s : Scopes) (parent scope : Nat) :
    (s.child parent).2.parentOf? scope =
      if scope = s.scopes.length then some (some parent)
      else s.parentOf? scope := by
  unfold parentOf? child
  split
  · next hscope => rw [hscope, List.getElem?_concat_length]; rfl
  · next hscope =>
      rcases Nat.lt_or_gt_of_ne hscope with hlt | hgt
      · rw [List.getElem?_append_left hlt]
      · rw [List.getElem?_eq_none hgt.le, List.getElem?_eq_none]
        simpa using hgt

theorem numberIn?_child (s : Scopes) (parent scope : Nat) (p : NodeId) :
    (s.child parent).2.numberIn? scope p = s.numberIn? scope p := by
  unfold numberIn? child
  rcases Nat.lt_trichotomy scope s.scopes.length with hlt | rfl | hgt
  · rw [List.getElem?_append_left hlt]
  · rw [List.getElem?_concat_length, List.getElem?_eq_none le_rfl]
    rfl
  · rw [List.getElem?_eq_none hgt.le, List.getElem?_eq_none]
    simpa using hgt

/-- What binding a parameter does in a scope that exists.  The parameter gets
the next number even if it had one; the number stays the next one then. -/
theorem bind_of_lt {s : Scopes} {scope : Nat} (hscope : scope < s.scopes.length)
    (p : NodeId) :
    s.bind scope p =
      (if (s.numberIn? scope p).isSome then .error .boundTwice else .ok s.next,
        ⟨s.scopes.set scope (s.scopes[scope].numbered p s.next),
          if (s.numberIn? scope p).isSome then s.next else s.next + 1⟩) := by
  have hnumber : s.numberIn? scope p = s.scopes[scope].numbers.lookup p := by
    rw [numberIn?, List.getElem?_eq_getElem hscope]
    rfl
  rw [hnumber, bind, List.getElem?_eq_getElem hscope]
  simp only
  split <;> rfl

theorem bind_of_ge {s : Scopes} {scope : Nat} (hscope : s.scopes.length ≤ scope)
    (p : NodeId) : s.bind scope p = (.error (.missingScope scope), s) := by
  rw [bind, List.getElem?_eq_none hscope]

theorem length_bind (s : Scopes) (scope : Nat) (p : NodeId) :
    (s.bind scope p).2.scopes.length = s.scopes.length := by
  rcases Nat.lt_or_ge scope s.scopes.length with hlt | hge
  · rw [bind_of_lt hlt, List.length_set]
  · rw [bind_of_ge hge]

theorem parentOf?_bind (s : Scopes) (scope other : Nat) (p : NodeId) :
    (s.bind scope p).2.parentOf? other = s.parentOf? other := by
  rcases Nat.lt_or_ge scope s.scopes.length with hlt | hge
  · rw [bind_of_lt hlt, parentOf?, parentOf?, List.getElem?_set]
    split
    · next hother => subst hother; simp [hlt, Scope.numbered]
    · rfl
  · rw [bind_of_ge hge]

theorem numberIn?_bind {s : Scopes} {scope : Nat}
    (hscope : scope < s.scopes.length) (p q : NodeId) (other : Nat) :
    (s.bind scope p).2.numberIn? other q =
      if other = scope ∧ q = p then some s.next else s.numberIn? other q := by
  unfold numberIn?
  rw [bind_of_lt hscope, List.getElem?_set]
  by_cases hother : other = scope
  · subst hother
    simp [hscope, Scope.lookup_numbered]
  · simp [hother, Ne.symm hother]

theorem resolveWithin_succ (s : Scopes) (p : NodeId) (fuel scope : Nat) :
    s.resolveWithin p (fuel + 1) scope =
      match s.parentOf? scope, s.numberIn? scope p with
      | none, _ => some (.error (.missingScope scope))
      | some _, some number => some (.ok (some number))
      | some none, none => some (.ok none)
      | some (some parent), none => s.resolveWithin p fuel parent := by
  rw [resolveWithin, parentOf?, numberIn?]
  rcases s.scopes[scope]? with _ | ⟨_ | parent, numbers⟩
  · rfl
  · simp only [Option.map_some, Option.bind_some]
    cases numbers.lookup p <;> rfl
  · simp only [Option.map_some, Option.bind_some]
    cases numbers.lookup p <;> rfl

/-! ## The scopes after a lawful history -/

/-- The scopes are what the history says of them. -/
structure Matches (history : List Call) : Prop where
  drawn_eq : drawn history = List.range' 1 (drawn history).length
  next_eq : (after history).next = (drawn history).length + 1
  parentOf?_root : (after history).parentOf? root = some none
  eq_root : ∀ scope, (after history).parentOf? scope = some none → scope = root
  parentOf?_iff : ∀ scope parent,
    (after history).parentOf? scope = some (some parent) ↔
      Gave history (.child parent) (.opened scope)
  parent_lt : ∀ scope parent,
    Gave history (.child parent) (.opened scope) → parent < scope
  numberIn?_isSome : ∀ scope p,
    ((after history).numberIn? scope p).isSome ↔ Binds history scope p
  leftWith : ∀ scope p number, (after history).numberIn? scope p = some number →
    LeftWith history scope p number

section Matches

variable {history : List Call}

theorem Matches.known_iff (h : Matches history) (scope : Nat) :
    Known history scope ↔ scope < (after history).scopes.length := by
  constructor
  · rintro (rfl | ⟨parent, hopened⟩)
    · exact lt_length_of_parentOf? h.parentOf?_root
    · exact lt_length_of_parentOf? ((h.parentOf?_iff _ _).2 hopened)
  · intro hlt
    rcases hparent : (after history).parentOf? scope with _ | _ | parent
    · exact absurd hlt (Nat.not_lt.2 (parentOf?_eq_none_iff.1 hparent))
    · exact .inl (h.eq_root scope hparent)
    · exact .inr ⟨parent, (h.parentOf?_iff _ _).1 hparent⟩

theorem not_gave_nil (call : Call) (given : Answer) : ¬ Gave [] call given := by
  rintro ⟨earlier, later, hsplit, -⟩
  cases earlier <;> cases hsplit

theorem parentOf?_start (scope : Nat) :
    start.parentOf? scope = if scope = root then some none else none := by
  cases scope <;> rfl

theorem numberIn?_start (scope : Nat) (p : NodeId) :
    start.numberIn? scope p = none := by
  cases scope <;> rfl

theorem matches_start : Matches [] where
  drawn_eq := rfl
  next_eq := rfl
  parentOf?_root := rfl
  eq_root := by
    intro scope hscope
    by_contra hne
    rw [after, List.foldl_nil, parentOf?_start, if_neg hne] at hscope
    cases hscope
  parentOf?_iff := by
    intro scope parent
    refine iff_of_false ?_ (not_gave_nil _ _)
    rw [after, List.foldl_nil, parentOf?_start]
    split <;> nofun
  parent_lt := fun _ _ hgave => absurd hgave (not_gave_nil _ _)
  numberIn?_isSome := by
    intro scope p
    refine iff_of_false ?_ fun ⟨_, hgave⟩ => not_gave_nil _ _ hgave
    rw [after, List.foldl_nil, numberIn?_start]
    nofun
  leftWith := by
    intro scope p number hnumber
    rw [after, List.foldl_nil, numberIn?_start] at hnumber
    cases hnumber

theorem Matches.child (h : Matches history) {parent : Nat}
    (hparent : Known history parent) : Matches (history ++ [.child parent]) := by
  have hnumber : ∀ scope p, (after (history ++ [.child parent])).numberIn? scope p =
      (after history).numberIn? scope p := by
    intro scope p
    rw [after_concat]
    exact numberIn?_child ..
  have hparents : ∀ scope, (after (history ++ [.child parent])).parentOf? scope =
      if scope = (after history).scopes.length then some (some parent)
      else (after history).parentOf? scope := by
    intro scope
    rw [after_concat]
    exact parentOf?_child ..
  have hdrawn : drawn (history ++ [.child parent]) = drawn history := by
    rw [drawn_concat]
    exact List.append_nil _
  have hgave : ∀ scope outer,
      Gave (history ++ [.child parent]) (.child outer) (.opened scope) ↔
        Gave history (.child outer) (.opened scope) ∨
          parent = outer ∧ (after history).scopes.length = scope := by
    intro scope outer
    rw [gave_concat, Call.child.injEq]
    refine or_congr_right (and_congr_right ?_)
    rintro rfl
    exact Answer.opened.injEq _ _ ▸ Iff.rfl
  -- The scope that is opened was not there before, so no call has opened it yet.
  have hnew : ∀ outer, ¬ Gave history (.child outer)
      (.opened (after history).scopes.length) := by
    intro outer hopened
    exact (lt_length_of_parentOf? ((h.parentOf?_iff _ _).2 hopened)).false
  refine ⟨?_, ?_, ?_, ?_, ?_, ?_, ?_, ?_⟩
  · rw [hdrawn, h.drawn_eq]
    simp
  · rw [after_concat, hdrawn]
    exact h.next_eq
  · rw [hparents, if_neg, h.parentOf?_root]
    exact (lt_length_of_parentOf? h.parentOf?_root).ne
  · intro scope hscope
    rw [hparents] at hscope
    split at hscope
    · cases hscope
    · exact h.eq_root scope hscope
  · intro scope outer
    rw [hparents, hgave]
    split
    · next hscope =>
        subst hscope
        simp [hnew]
    · next hscope => simp [h.parentOf?_iff, Ne.symm hscope]
  · intro scope outer hopened
    rcases (hgave _ _).1 hopened with hopened | ⟨rfl, rfl⟩
    · exact h.parent_lt _ _ hopened
    · exact (h.known_iff _).1 hparent
  · intro scope p
    rw [hnumber, h.numberIn?_isSome, binds_concat]
    exact (or_iff_left (by simp)).symm
  · intro scope p number hleft
    rw [hnumber] at hleft
    exact (h.leftWith _ _ _ hleft).concat nofun

theorem Matches.resolve (h : Matches history) (scope : Nat) (p : NodeId) :
    Matches (history ++ [.resolve scope p]) := by
  have hafter : after (history ++ [.resolve scope p]) = after history :=
    after_concat ..
  have hdrawn : drawn (history ++ [.resolve scope p]) = drawn history := by
    rw [drawn_concat]
    exact List.append_nil _
  have hother : ∀ parent, Call.resolve scope p ≠ .child parent := by simp
  refine ⟨?_, ?_, ?_, ?_, ?_, ?_, ?_, ?_⟩
  · rw [hdrawn]
    exact h.drawn_eq
  · rw [hafter, hdrawn]
    exact h.next_eq
  · rw [hafter]
    exact h.parentOf?_root
  · rw [hafter]
    exact h.eq_root
  · intro inner outer
    rw [hafter, gave_child_concat hother]
    exact h.parentOf?_iff inner outer
  · intro inner outer
    rw [gave_child_concat hother]
    exact h.parent_lt inner outer
  · intro inner q
    rw [hafter, h.numberIn?_isSome, binds_concat]
    exact (or_iff_left (by simp)).symm
  · intro inner q number hleft
    rw [hafter] at hleft
    exact (h.leftWith _ _ _ hleft).concat nofun

theorem Matches.answer_bind (h : Matches history) {scope : Nat}
    (hscope : Known history scope) (p : NodeId) :
    answer history (.bind scope p) = .bound
      (if ((after history).numberIn? scope p).isSome then .error .boundTwice
      else .ok ((drawn history).length + 1)) := by
  rw [← h.next_eq]
  exact congrArg (Answer.bound ·.1) (bind_of_lt ((h.known_iff _).1 hscope) p)

theorem Matches.bind (h : Matches history) {scope : Nat}
    (hscope : Known history scope) (p : NodeId) :
    Matches (history ++ [.bind scope p]) := by
  have hlt := (h.known_iff _).1 hscope
  have hparents : ∀ inner, (after (history ++ [.bind scope p])).parentOf? inner =
      (after history).parentOf? inner := by
    intro inner
    rw [after_concat]
    exact parentOf?_bind ..
  have hnumber : ∀ inner q, (after (history ++ [.bind scope p])).numberIn? inner q =
      if inner = scope ∧ q = p then some (after history).next
      else (after history).numberIn? inner q := by
    intro inner q
    rw [after_concat]
    exact numberIn?_bind hlt ..
  have hother : ∀ parent, Call.bind scope p ≠ .child parent := by simp
  have hanswer := h.answer_bind hscope p
  have hnext : (after (history ++ [.bind scope p])).next =
      if ((after history).numberIn? scope p).isSome then (after history).next
      else (after history).next + 1 := by
    rw [after_concat]
    exact congrArg (·.2.next) (bind_of_lt hlt p)
  refine ⟨?_, ?_, ?_, ?_, ?_, ?_, ?_, ?_⟩
  · rw [drawn_concat, hanswer]
    split
    · simpa [Answer.drawn] using h.drawn_eq
    · simp only [Answer.drawn, List.length_append, List.length_singleton]
      rw [List.range'_concat, ← h.drawn_eq, Nat.one_mul, Nat.add_comm 1]
  · rw [hnext, drawn_concat, hanswer, h.next_eq]
    split
    · simp [Answer.drawn]
    · simp [Answer.drawn]
  · rw [hparents]
    exact h.parentOf?_root
  · intro inner hinner
    rw [hparents] at hinner
    exact h.eq_root inner hinner
  · intro inner outer
    rw [hparents, gave_child_concat hother]
    exact h.parentOf?_iff inner outer
  · intro inner outer
    rw [gave_child_concat hother]
    exact h.parent_lt inner outer
  · intro inner q
    rw [hnumber, binds_concat, ← h.numberIn?_isSome]
    split
    · next hsame =>
        obtain ⟨rfl, rfl⟩ := hsame
        rw [hanswer]
        cases ((after history).numberIn? inner q).isSome <;> simp
    · next hother =>
        refine (or_iff_left ?_).symm
        rintro ⟨hbind, -⟩
        cases hbind
        exact hother ⟨rfl, rfl⟩
  · intro inner q number hleft
    rw [hnumber] at hleft
    split at hleft
    · next hsame =>
        -- The attempt is the last one now, and leaves the next number whether it
        -- fails or not.
        obtain ⟨rfl, rfl⟩ := hsame
        cases hleft
        refine ⟨history, [], rfl, List.not_mem_nil, ?_⟩
        rw [hanswer, h.next_eq]
        cases ((after history).numberIn? inner q).isSome <;> simp
    · next hother =>
        refine (h.leftWith _ _ _ hleft).concat ?_
        intro hbind
        cases hbind
        exact hother ⟨rfl, rfl⟩

theorem Lawful.matches (h : Lawful history) : Matches history := by
  induction h with
  | start => exact matches_start
  | @step history call _ hknown ih =>
      cases call with
      | child parent => exact ih.child hknown
      | bind scope p => exact ih.bind hknown p
      | resolve scope p => exact ih.resolve scope p

/-! ## Looking up a parameter -/

/-- From every scope that can be referred to, the way outwards ends. -/
theorem Matches.exists_nearest (h : Matches history) (p : NodeId) {scope : Nat}
    (hscope : Known history scope) : ∃ found, Nearest history p scope found := by
  induction scope using Nat.strong_induction_on with
  | _ scope ih =>
      by_cases hbinds : Binds history scope p
      · exact ⟨some scope, .here hbinds⟩
      · rcases hscope with rfl | ⟨parent, hopened⟩
        · exact ⟨none, .nowhere hbinds⟩
        · have hlt := h.parent_lt _ _ hopened
          have hparent : Known history parent :=
            (h.known_iff _).2 (hlt.trans
              (lt_length_of_parentOf? ((h.parentOf?_iff _ _).2 hopened)))
          obtain ⟨found, hfound⟩ := ih parent hlt hparent
          exact ⟨found, .outer hbinds hopened hfound⟩

theorem Nearest.binds {p : NodeId} {scope found : Nat}
    (h : Nearest history p scope (some found)) : Binds history found p := by
  generalize hfound : some found = found? at h
  induction h with
  | here hbound =>
      cases hfound
      exact hbound
  | outer _ _ _ ih => exact ih hfound
  | nowhere => cases hfound

/-- A lookup ends, and finds the number that the nearest scope has for the
parameter, in all scopes that are arranged as the history says and bind what it
says. -/
theorem Nearest.resolveWithin {s : Scopes} {p : NodeId} {scope : Nat}
    {found : Option Nat} (hnearest : Nearest history p scope found)
    (hmatches : Matches history)
    (hparents : ∀ scope, s.parentOf? scope = (after history).parentOf? scope)
    (hbinds : ∀ scope, (s.numberIn? scope p).isSome =
      ((after history).numberIn? scope p).isSome)
    {fuel : Nat} (hfuel : scope < fuel) :
    s.resolveWithin p fuel scope =
      some (.ok (found.bind fun inner => s.numberIn? inner p)) := by
  have hiff : ∀ scope, (s.numberIn? scope p).isSome ↔ Binds history scope p := by
    intro scope
    rw [hbinds, hmatches.numberIn?_isSome]
  have hnone : ∀ {scope}, ¬ Binds history scope p → s.numberIn? scope p = none := by
    intro scope hfree
    rw [← Option.not_isSome_iff_eq_none, hiff]
    exact hfree
  induction hnearest generalizing fuel with
  | @here scope hbound =>
      obtain ⟨fuel, rfl⟩ := Nat.exists_eq_succ_of_ne_zero hfuel.ne_bot
      obtain ⟨number, hnumber⟩ := Option.isSome_iff_exists.1 ((hiff scope).2 hbound)
      obtain ⟨parent, hparent⟩ : ∃ parent, s.parentOf? scope = some parent := by
        cases hscope : s.scopes[scope]? with
        | none => simp [numberIn?, hscope] at hnumber
        | some found => exact ⟨_, congrArg (Option.map Scope.parent) hscope⟩
      rw [resolveWithin_succ, hparent, hnumber, Option.bind_some, hnumber]
  | @outer scope parent found hfree hopened _ ih =>
      obtain ⟨fuel, rfl⟩ := Nat.exists_eq_succ_of_ne_zero hfuel.ne_bot
      have hparent : s.parentOf? scope = some (some parent) := by
        rw [hparents]
        exact (hmatches.parentOf?_iff _ _).2 hopened
      rw [resolveWithin_succ, hparent, hnone hfree]
      exact ih ((hmatches.parent_lt _ _ hopened).trans_le (Nat.lt_succ_iff.1 hfuel))
  | nowhere hfree =>
      obtain ⟨fuel, rfl⟩ := Nat.exists_eq_succ_of_ne_zero hfuel.ne_bot
      have hparent : s.parentOf? root = some none := by
        rw [hparents, hmatches.parentOf?_root]
      rw [resolveWithin_succ, hparent, hnone hfree]
      rfl

theorem Nearest.resolve {s : Scopes} {p : NodeId} {scope : Nat}
    {found : Option Nat} (hnearest : Nearest history p scope found)
    (hmatches : Matches history)
    (hparents : ∀ scope, s.parentOf? scope = (after history).parentOf? scope)
    (hbinds : ∀ scope, (s.numberIn? scope p).isSome =
      ((after history).numberIn? scope p).isSome)
    (hscope : scope < s.scopes.length) :
    s.resolve scope p = .ok (found.bind fun inner => s.numberIn? inner p) := by
  rw [Scopes.resolve, hnearest.resolveWithin hmatches hparents hbinds
    (Nat.lt_succ_of_lt hscope), Option.getD_some]

end Matches

/-! ## Attempts that fail -/

/-- The two differ at most in the number that one parameter has in one scope. -/
structure AlikeBut (scope : Nat) (p : NodeId) (s s' : Scopes) : Prop where
  next_eq : s'.next = s.next
  length_eq : s'.scopes.length = s.scopes.length
  parentOf?_eq : ∀ inner, s'.parentOf? inner = s.parentOf? inner
  numberIn?_eq : ∀ inner q, ¬ (inner = scope ∧ q = p) →
    s'.numberIn? inner q = s.numberIn? inner q
  bound : (s.numberIn? scope p).isSome
  bound' : (s'.numberIn? scope p).isSome

section AlikeBut

variable {scope : Nat} {p : NodeId} {s s' : Scopes}

theorem AlikeBut.isSome_eq (h : AlikeBut scope p s s') (inner : Nat) (q : NodeId) :
    (s'.numberIn? inner q).isSome = (s.numberIn? inner q).isSome := by
  by_cases hsame : inner = scope ∧ q = p
  · obtain ⟨rfl, rfl⟩ := hsame
    rw [h.bound, h.bound']
  · rw [h.numberIn?_eq inner q hsame]

theorem alikeBut_bind (hbound : (s.numberIn? scope p).isSome) :
    AlikeBut scope p s (s.bind scope p).2 := by
  have hlt : scope < s.scopes.length := by
    by_contra hge
    simp [numberIn?, List.getElem?_eq_none (Nat.le_of_not_lt hge)] at hbound
  refine ⟨?_, length_bind .., fun _ => parentOf?_bind .., ?_, hbound, ?_⟩
  · simp only [bind_of_lt hlt, hbound, if_true]
  · intro inner q hother
    rw [numberIn?_bind hlt, if_neg hother]
  · rw [numberIn?_bind hlt, if_pos ⟨rfl, rfl⟩]
    rfl

theorem AlikeBut.child (h : AlikeBut scope p s s') (parent : Nat) :
    AlikeBut scope p (s.child parent).2 (s'.child parent).2 where
  next_eq := h.next_eq
  length_eq := by simp [Scopes.child, h.length_eq]
  parentOf?_eq := by
    intro inner
    rw [parentOf?_child, parentOf?_child, h.length_eq, h.parentOf?_eq]
  numberIn?_eq := by
    intro inner q hother
    rw [numberIn?_child, numberIn?_child, h.numberIn?_eq inner q hother]
  bound := by rw [numberIn?_child, h.bound]
  bound' := by rw [numberIn?_child, h.bound']

theorem AlikeBut.bind (h : AlikeBut scope p s s') (inner : Nat) (q : NodeId) :
    (s'.bind inner q).1 = (s.bind inner q).1 ∧
      AlikeBut scope p (s.bind inner q).2 (s'.bind inner q).2 := by
  rcases Nat.lt_or_ge inner s.scopes.length with hlt | hge
  · have hlt' : inner < s'.scopes.length := by rwa [h.length_eq]
    have hsome := h.isSome_eq inner q
    refine ⟨?_, ?_, ?_, ?_, ?_, ?_, ?_⟩
    · rw [bind_of_lt hlt, bind_of_lt hlt', hsome, h.next_eq]
    · rw [bind_of_lt hlt, bind_of_lt hlt', hsome, h.next_eq]
    · rw [length_bind, length_bind, h.length_eq]
    · intro other
      rw [parentOf?_bind, parentOf?_bind, h.parentOf?_eq]
    · intro other r hother
      rw [numberIn?_bind hlt, numberIn?_bind hlt', h.next_eq,
        h.numberIn?_eq other r hother]
    · rw [numberIn?_bind hlt]
      split
      · rfl
      · exact h.bound
    · rw [numberIn?_bind hlt']
      split
      · rfl
      · exact h.bound'
  · rw [bind_of_ge hge, bind_of_ge (h.length_eq.trans_le hge)]
    exact ⟨rfl, h⟩

theorem AlikeBut.perform (h : AlikeBut scope p s s') (call : Call) :
    AlikeBut scope p (s.perform call).2 (s'.perform call).2 := by
  cases call with
  | child parent => exact h.child parent
  | bind inner q => exact (h.bind inner q).2
  | resolve inner q => exact h

theorem AlikeBut.foldl_perform (h : AlikeBut scope p s s') (calls : List Call) :
    AlikeBut scope p (calls.foldl (fun s call => (s.perform call).2) s)
      (calls.foldl (fun s call => (s.perform call).2) s') := by
  induction calls generalizing s s' with
  | nil => exact h
  | cons call rest ih => exact ih (h.perform call)

end AlikeBut

theorem Lawful.of_append {earlier later : List Call}
    (h : Lawful (earlier ++ later)) : Lawful earlier := by
  induction later using List.reverseRecOn with
  | nil => rwa [List.append_nil] at h
  | append_singleton later call ih =>
      rw [← List.append_assoc] at h
      refine ih ?_
      generalize hhistory : earlier ++ later ++ [call] = history at h
      cases h with
      | start => simp at hhistory
      | step hlawful _ =>
          obtain ⟨hinit, -⟩ := List.append_inj' hhistory rfl
          rwa [hinit]

theorem Lawful.known {earlier later : List Call} {call : Call}
    (h : Lawful (earlier ++ call :: later)) : Known earlier call.scope := by
  have hcall : Lawful (earlier ++ [call]) := by
    rw [List.append_cons] at h
    exact h.of_append
  generalize hhistory : earlier ++ [call] = history at hcall
  cases hcall with
  | start => simp at hhistory
  | step _ hknown =>
      obtain ⟨rfl, hlast⟩ := List.append_inj' hhistory rfl
      cases hlast
      exact hknown

/-- An attempt that failed changes only what is found by lookups of its parameter
that its scope answers. -/
theorem Lawful.answer_of_failed {before later : List Call} {scope : Nat}
    {p : NodeId} {cause : BuildFault}
    (h : Lawful (before ++ .bind scope p :: later))
    (hfailed : answer before (.bind scope p) = .bound (.error cause))
    {call : Call} (hknown : Known (before ++ .bind scope p :: later) call.scope) :
    answer (before ++ later) call = answer (before ++ .bind scope p :: later) call ∨
      ∃ inner, call = .resolve inner p ∧
        Nearest (before ++ .bind scope p :: later) p inner (some scope) := by
  have hbound : ((after before).numberIn? scope p).isSome := by
    by_contra hfree
    have hknown : Known before scope := h.known
    rw [h.of_append.matches.answer_bind hknown, if_neg hfree] at hfailed
    cases hfailed
  have halike : AlikeBut scope p (after (before ++ later))
      (after (before ++ .bind scope p :: later)) := by
    rw [after, after, List.foldl_append, List.foldl_append, List.foldl_cons]
    exact (alikeBut_bind hbound).foldl_perform later
  have hmatches := h.matches
  cases call with
  | child parent => exact .inl (congrArg Answer.opened halike.length_eq.symm)
  | bind inner q => exact .inl (congrArg Answer.bound (halike.bind inner q).1.symm)
  | resolve inner q =>
      simp only [Call.scope] at hknown
      obtain ⟨found, hnearest⟩ := hmatches.exists_nearest q hknown
      by_cases hanswers : found = some scope ∧ q = p
      · obtain ⟨rfl, rfl⟩ := hanswers
        exact .inr ⟨inner, rfl, hnearest⟩
      · refine .inl (congrArg Answer.found ?_)
        have hlt := (hmatches.known_iff _).1 hknown
        have hparents := fun scope => (halike.parentOf?_eq scope).symm
        have hbinds := fun scope => (halike.isSome_eq scope q).symm
        rw [hnearest.resolve hmatches hparents hbinds
            (hlt.trans_eq halike.length_eq),
          hnearest.resolve hmatches (fun _ => rfl) (fun _ => rfl) hlt]
        cases found with
        | none => rfl
        | some outer =>
            refine congrArg Except.ok (halike.numberIn?_eq outer q ?_).symm
            rintro ⟨rfl, rfl⟩
            exact hanswers ⟨rfl, rfl⟩

/-! ## What calls give back -/

/-- The number that the history leaves a parameter with in the scope that was
found, and none if none was found. -/
inductive Numbered (history : List Call) (p : NodeId) :
    Option Nat → Option Nat → Prop where
  | nowhere : Numbered history p none none
  | within {scope number : Nat} :
      LeftWith history scope p number →
      Numbered history p (some scope) (some number)

/-- A lookup ends, with as many steps as there are scopes up to its own, and
finds what the last attempt left in the nearest scope that binds the parameter.
An attempt to bind fails where the parameter is bound and draws the next number
elsewhere, so that no number is drawn twice.  Without an attempt that failed,
every later call gives back the same, except for lookups of its parameter that
its scope answers. -/
theorem Lawful.calls_exact {history : List Call} (h : Lawful history) :
    (∀ scope p, Known history scope → ∃ found number?,
      Nearest history p scope found ∧ Numbered history p found number? ∧
      answer history (.resolve scope p) = .found (.ok number?) ∧
      ∀ fuel, scope < fuel →
        (after history).resolveWithin p fuel scope = some (.ok number?)) ∧
    (∀ scope p, Known history scope →
      (Binds history scope p →
        answer history (.bind scope p) = .bound (.error .boundTwice)) ∧
      (¬ Binds history scope p → answer history (.bind scope p) =
        .bound (.ok ((drawn history).length + 1)))) ∧
    drawn history = List.range' 1 (drawn history).length ∧
    (drawn history).Nodup ∧
    ∀ before scope p later cause call,
      history = before ++ .bind scope p :: later →
      answer before (.bind scope p) = .bound (.error cause) →
      Known history call.scope →
      answer (before ++ later) call = answer history call ∨
        ∃ inner, call = .resolve inner p ∧
          Nearest history p inner (some scope) := by
  have hmatches := h.matches
  refine ⟨?_, ?_, hmatches.drawn_eq, ?_, ?_⟩
  · intro scope p hknown
    obtain ⟨found, hnearest⟩ := hmatches.exists_nearest p hknown
    have hlookup : ∀ fuel, scope < fuel →
        (after history).resolveWithin p fuel scope =
          some (.ok (found.bind fun inner => (after history).numberIn? inner p)) :=
      fun _ => hnearest.resolveWithin hmatches (fun _ => rfl) (fun _ => rfl)
    have hresolve := hnearest.resolve hmatches (fun _ => rfl) (fun _ => rfl)
      ((hmatches.known_iff _).1 hknown)
    refine ⟨found, _, hnearest, ?_, congrArg Answer.found hresolve, hlookup⟩
    cases found with
    | none => exact .nowhere
    | some inner =>
        obtain ⟨number, hnumber⟩ := Option.isSome_iff_exists.1
          ((hmatches.numberIn?_isSome inner p).2 hnearest.binds)
        rw [Option.bind_some, hnumber]
        exact .within (hmatches.leftWith _ _ _ hnumber)
  · intro scope p hknown
    rw [hmatches.answer_bind hknown, ← hmatches.numberIn?_isSome]
    exact ⟨fun hbound => by rw [if_pos hbound], fun hfree => by rw [if_neg hfree]⟩
  · rw [hmatches.drawn_eq]
    exact List.nodup_range'
  · rintro before scope p later cause call rfl hfailed hknown
    exact h.answer_of_failed hfailed hknown

def boundAgain : List Call := [.child root, .bind 1 7] ++ .bind 1 7 :: []

theorem lawful_boundAgain : Lawful boundAgain := by
  have hopened : ∀ later, Known (.child root :: later) 1 :=
    fun later => .inr ⟨root, [], later, rfl, rfl⟩
  have hchild : Lawful [.child root] := .step .start (.inl rfl)
  have hbind : Lawful [.child root, .bind 1 7] := .step hchild (hopened _)
  exact .step hbind (hopened _)

theorem known_boundAgain : Known boundAgain 1 :=
  .inr ⟨root, [], _, rfl, rfl⟩

theorem calls_exact_boundAgain :
    Lawful boundAgain ∧
      (∃ found number?, Nearest boundAgain 7 1 found ∧
        Numbered boundAgain 7 found number? ∧
        answer boundAgain (.resolve 1 7) = .found (.ok number?)) ∧
      answer boundAgain (.bind 1 7) = .bound (.error .boundTwice) ∧
      answer boundAgain (.bind 1 8) = .bound (.ok 2) := by
  obtain ⟨hresolve, hbind, -⟩ := lawful_boundAgain.calls_exact
  obtain ⟨found, number?, hnearest, hnumber, hanswer, -⟩ :=
    hresolve 1 7 known_boundAgain
  have hfree : ¬ Binds boundAgain 1 8 := by
    rw [← lawful_boundAgain.matches.numberIn?_isSome]
    decide
  exact ⟨lawful_boundAgain, ⟨found, number?, hnearest, hnumber, hanswer⟩,
    (hbind 1 7 known_boundAgain).1 ⟨1, [.child root], _, rfl, rfl⟩,
    (hbind 1 8 known_boundAgain).2 hfree⟩

/-- The second attempt fails and yet changes the number of the parameter, to the
one that the next parameter gets. -/
theorem boundAgain_changes_lookup :
    Lawful boundAgain ∧ Known boundAgain 1 ∧
      answer [.child root, .bind 1 7] (.bind 1 7) = .bound (.error .boundTwice) ∧
      answer [.child root, .bind 1 7] (.resolve 1 7) = .found (.ok (some 1)) ∧
      answer boundAgain (.resolve 1 7) = .found (.ok (some 2)) ∧
      answer boundAgain (.resolve 1 7) ≠
        answer [.child root, .bind 1 7] (.resolve 1 7) ∧
      answer boundAgain (.bind 1 8) = .bound (.ok 2) :=
  ⟨lawful_boundAgain, known_boundAgain, rfl, rfl, rfl, nofun, rfl⟩

end Scopes

end DocumentQuery
