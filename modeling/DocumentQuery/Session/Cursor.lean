import DocumentQuery.Session.Basic

/-!
# Cursors

A cursor hands out the elements of a result one by one and asks for the next
batch when it runs out of them.  The first fault it meets stays: every further
call fails with it.  A call that was given up while it waited for a batch
leaves a mark, because the batch is lost; the next call turns the mark into a
fault.

Every call of `next` that hands out an element either uses up a reply or takes
one of the elements already received, so reading a whole result ends.
-/

namespace DocumentQuery

/-- The result of a query, as far as it has not been handed out. -/
structure Cursor where
  token : Token
  shape : ResultShape
  /-- One value in place of a sequence. -/
  single : Option Datum := none
  /-- The elements received and not handed out. -/
  buffer : List Datum := []
  /-- What to ask the next batch by, if there is one. -/
  continuation : Option String := none
  /-- A batch was asked for and has not come. -/
  awaiting : Bool := false
  fault : Option Fault := none
  writeState : Option WriteState := none
  deriving Repr, Inhabited

/-- The elements of the stream that a step unfolds from a state, and how it ends.
A step gives the next element and the state to go on from, or nothing, which ends the
stream.  A step that fails ends it as well, with the fault as its last item, and one
that waits leaves it waiting.  With every element the rank of the state decreases. -/
def unfoldStream {τ α : Type} (step : τ → Outcome (Option α) × τ) (rank : τ → Nat × Nat)
    (hrank : ∀ state value after, step state = (.ok (some value), after) →
      Prod.Lex (· < ·) (· < ·) (rank after) (rank state)) (state : τ) :
    List α × Outcome Unit × τ :=
  match hstep : step state with
  | (.pending, after) => ([], .pending, after)
  | (.error fault, after) => ([], .error fault, after)
  | (.ok none, after) => ([], .ok (), after)
  | (.ok (some value), after) =>
    have := hrank state value after hstep
    let (rest, ending) := unfoldStream step rank hrank after
    (value :: rest, ending)
  termination_by rank state
  decreasing_by exact this

/-- How a call on a cursor ends, and the cursor and the session after it. -/
abbrev Call (σ α : Type) := Outcome α × Cursor × Session σ

namespace Call

variable {σ α β : Type}

/-- Goes on with the value of a call that has one, and passes any other end on. -/
def andThen (call : Call σ α) (rest : α → Cursor → Session σ → Call σ β) : Call σ β :=
  match call with
  | (.ok value, c, s) => rest value c s
  | (.error fault, c, s) => (.error fault, c, s)
  | (.pending, c, s) => (.pending, c, s)

end Call

namespace Cursor

variable {σ α : Type}

/-- Everything has been handed out, and the server has no more. -/
def isExhausted (c : Cursor) : Bool :=
  c.fault.isNone && c.single.isNone && c.buffer.isEmpty && c.continuation.isNone

def receive (c : Cursor) (items : List Datum) (continuation : Option String) : Cursor :=
  { c with buffer := c.buffer ++ items, continuation := continuation }

def receiving (c : Cursor) (items : List Datum) (continuation : Option String) : Event :=
  .received c.token items.length continuation.isSome

/-- A cursor over a result that starts with a value or a batch. -/
def start (s : Session σ) (token : Token) (shape : ResultShape) (first : Reply) :
    Cursor × Session σ :=
  let c : Cursor := { token, shape, writeState := if shape.isWrite then some .evaluated else none }
  match first with
  | .value datum => ({ c with single := some datum }, s)
  | .batch items continuation =>
    (c.receive items continuation, s.note (c.receiving items continuation))
  | .failure report => ({ c with fault := some (.query report) }, s)

/-- Ends a call with a fault that stays. -/
def fail (c : Cursor) (s : Session σ) (fault : Fault) : Call σ α :=
  (.error fault, { c with continuation := none, fault := some fault },
    s.note (.cursorFailed c.token fault))

/-- How a call ends that cannot even begin: with the fault of the cursor, or with
one for the batch that never came. -/
def blocked? (c : Cursor) (s : Session σ) : Option (Call σ α) :=
  if c.awaiting then
    some ({ c with awaiting := false }.fail s (.connection (.fetchAbandoned c.token)))
  else c.fault.map fun fault => (.error fault, c, s)

/-- Moves a single value to the elements; an array counts as its items. -/
def unfoldSingle (c : Cursor) : Cursor :=
  match c.single with
  | none => c
  | some (.array items) => { c with single := none, buffer := c.buffer ++ items }
  | some datum => { c with single := none, buffer := c.buffer ++ [datum] }

/-- The elements received and not handed out, those of a single value among
them. -/
def stored (c : Cursor) : List Datum := c.unfoldSingle.buffer

/-- The batch in the reply to a continuation. -/
def batchOf (bytes : Bytes) (token : Token) : Except Fault (List Datum × Option String) :=
  match Reply.decode bytes token with
  | .error cause => .error (.decode cause)
  | .ok (.value _) => .error (.decode .unexpectedValue)
  | .ok (.failure report) => .error (.query report)
  | .ok (.batch items continuation) => .ok (items, continuation)

variable [Connection σ]

/-- Asks for the batch of a continuation and takes it in. -/
def fetch (c : Cursor) (s : Session σ) (continuation : String) : Call σ Unit :=
  match s.send ⟨c.token, .resume continuation⟩ with
  | (.unanswered, s) => (.pending, { c with awaiting := true }, s)
  | (.failed fault, s) => c.fail s fault
  | (.reply bytes, s) =>
    match batchOf bytes c.token with
    | .error fault => c.fail s fault
    | .ok (items, continuation) =>
      (.ok (), c.receive items continuation, s.note (c.receiving items continuation))

theorem repliesLeft_fetch {c c' : Cursor} {s s' : Session σ} {continuation : String}
    (h : c.fetch s continuation = (.ok (), c', s')) : s'.repliesLeft < s.repliesLeft := by
  unfold fetch at h
  split at h
  · cases h
  · cases h
  · next bytes after hsend =>
    split at h
    · cases h
    · cases h
      exact (Session.repliesLeft_send hsend : after.repliesLeft < s.repliesLeft)

/-- The next element, or nothing once all have been handed out. -/
def next (c : Cursor) (s : Session σ) : Call σ (Option Datum) :=
  match c.blocked? s with
  | some call => call
  | none =>
    match c.stored with
    | datum :: rest => (.ok (some datum), { c.unfoldSingle with buffer := rest }, s)
    | [] =>
      match c.continuation with
      | none => (.ok none, c.unfoldSingle, s)
      | some continuation =>
        match hfetch : c.unfoldSingle.fetch s continuation with
        | (.ok (), c, s) =>
          have := repliesLeft_fetch hfetch
          next c s
        | (.error fault, c, s) => (.error fault, c, s)
        | (.pending, c, s) => (.pending, c, s)
  termination_by s.repliesLeft

omit [Connection σ] in
@[simp] theorem unfoldSingle_single (c : Cursor) : c.unfoldSingle.single = none := by
  unfold unfoldSingle
  split <;> simp_all

omit [Connection σ] in
theorem stored_eq_buffer {c : Cursor} (h : c.single = none) : c.stored = c.buffer := by
  simp [stored, unfoldSingle, h]

omit [Connection σ] in
theorem blocked?_ne_ok {c : Cursor} {s : Session σ} {call : Call σ α} {value : α}
    (h : c.blocked? s = some call) : call.1 ≠ .ok value := by
  unfold blocked? at h
  split at h
  · cases h
    simp [fail]
  · obtain ⟨fault, _, rfl⟩ := Option.map_eq_some_iff.1 h
    simp

/-- Handing out an element uses up a reply or an element already received. -/
theorem next_ok_some {c c' : Cursor} {s s' : Session σ} {datum : Datum}
    (h : c.next s = (.ok (some datum), c', s')) :
    s'.repliesLeft < s.repliesLeft ∨
      (s'.repliesLeft = s.repliesLeft ∧ c'.stored.length < c.stored.length) := by
  fun_induction next c s with
  | case1 c s call hblocked => exact (blocked?_ne_ok hblocked (congrArg Prod.fst h)).elim
  | case2 c s hfree first rest hstored =>
    cases h
    refine .inr ⟨rfl, ?_⟩
    rw [stored_eq_buffer (by exact unfoldSingle_single c), hstored]
    exact Nat.lt_succ_self _
  | case3 => cases h
  | case4 c s hfree hstored continuation hcontinuation after s₁ hfetch hless ih =>
    rcases ih h with hlt | ⟨heq, _⟩
    · exact .inl (Nat.lt_trans hlt hless)
    · exact .inl (heq ▸ hless)
  | case5 => cases h
  | case6 => cases h

/-- The rank of a cursor, which decreases with every element handed out. -/
def rank (c : Cursor) (s : Session σ) : Nat × Nat := (s.repliesLeft, c.stored.length)

theorem rank_next {c c' : Cursor} {s s' : Session σ} {datum : Datum}
    (h : c.next s = (.ok (some datum), c', s')) :
    Prod.Lex (· < ·) (· < ·) (c'.rank s') (c.rank s) := by
  unfold rank
  rcases next_ok_some h with hlt | ⟨heq, hlt⟩
  · exact .left _ _ hlt
  · exact heq ▸ .right _ hlt

/-- The result as exactly one value.  A single value is taken as it is, an array
too; a sequence must have exactly one element. -/
def oneDatum (c : Cursor) (s : Session σ) : Call σ Datum :=
  match c.blocked? s with
  | some call => call
  | none =>
    match c.single with
    | some datum => (.ok datum, { c with single := none }, s)
    | none =>
      (c.next s).andThen fun first c s =>
        match first with
        | none => c.fail s (.decode .noValue)
        | some first =>
          (c.next s).andThen fun second c s =>
            match second with
            | none => (.ok first, c, s)
            | some _ => c.fail s (.decode .manyValues)

/-- The result as exactly one value of a type.  If the value is of another type
the call fails but the cursor does not. -/
def one (read : Reader α) (c : Cursor) (s : Session σ) : Call σ α :=
  (c.oneDatum s).andThen fun datum c s =>
    (.ofExcept ((datum.readAs read).mapError .decode), c, s)

/-- Appends to `done` every element still to come, as a value of a type, up to
the first that is of another type. -/
def collectInto (read : Reader α) (done : List α) (c : Cursor) (s : Session σ) :
    List α × Call σ Unit :=
  match hnext : c.next s with
  | (.pending, c, s) => (done, .pending, c, s)
  | (.error fault, c, s) => (done, .error fault, c, s)
  | (.ok none, c, s) => (done, .ok (), c, s)
  | (.ok (some datum), c, s) =>
    match datum.readAs read with
    | .ok value =>
      have := rank_next hnext
      collectInto read (done ++ [value]) c s
    | .error cause => (done, c.fail s (.decode cause))
  termination_by c.rank s
  decreasing_by exact this

def collect (read : Reader α) (c : Cursor) (s : Session σ) : Call σ (List α) :=
  let (values, call) := c.collectInto read [] s
  call.andThen fun _ c s => (.ok values, c, s)

/-- The result as the outcome of a write.  A write of one document is checked to
have touched no more. -/
def writeOutcome (c : Cursor) (s : Session σ) : Call σ WriteOutcome :=
  let (kind, point) := match c.shape with
    | .write kind point => (kind, point)
    | .other => (.mixed, false)
  (c.oneDatum s).andThen fun datum c s =>
    let s := s.noteAll ((WriteOutcome.ignoredFieldsOf kind datum).map .ignoredField)
    match WriteOutcome.ofDatum kind datum with
    | .error cause => c.fail s (.decode cause)
    | .ok outcome =>
      match if point then outcome.checkPoint else .ok () with
      | .error cause => c.fail s (.decode cause)
      | .ok () =>
        (.ok outcome, { c with writeState := some .aggregated },
          s.note (.writeFinished c.token outcome))

/-- The elements that the cursor yields as a stream, and how the stream ends. -/
def drain (c : Cursor) (s : Session σ) : List Datum × Call σ Unit :=
  unfoldStream (fun state : Cursor × Session σ => state.1.next state.2)
    (fun state => state.1.rank state.2) (fun _ _ _ hstep => rank_next hstep) (c, s)

/-- Stops the query if the server has more of its result.  What was received and
not handed out is dropped. -/
def close (c : Cursor) (s : Session σ) : Call σ Unit :=
  match c.continuation with
  | none => (.ok (), { c with single := none, buffer := [] }, s)
  | some _ =>
    let c := { c with single := none, buffer := [], continuation := none }
    match (s.note (.stopping c.token)).send ⟨c.token, .stop⟩ with
    | (.unanswered, s) => (.pending, c, s)
    | (.failed fault, s) => (.error fault, c, s)
    | (.reply bytes, s) =>
      match Reply.decode bytes c.token with
      | .error cause => (.error (.decode cause), c, s)
      | .ok (.failure report) => (.error (.query report), c, s)
      | .ok _ => (.ok (), c, s)

end Cursor

end DocumentQuery
