import DocumentQuery.Client.Handshake
import DocumentQuery.Proofs.FrameStream
import DocumentQuery.Proofs.ResponseText
import Mathlib.Tactic

/-!
# The handshake on a stream

The answer of a server is read byte by byte, and so the pieces in which the stream
arrives do not matter: what has been read is always a beginning of the stream, and
what is left unread is the rest of it.  Reading ends in one of three ways.  The zero
byte comes while there is room, or the stream ends before it, or one byte too many
comes that is not zero.  From this follow the outcome of the handshake and what the
frames after it are read from.
-/

namespace DocumentQuery

theorem Bytes.toText?_eq_some_iff {bytes : Bytes} {s : String} :
    bytes.toText? = some s ↔ bytes = ofText s := by
  constructor
  · intro h
    rw [toText?, String.fromUTF8?] at h
    split at h
    · cases h
      simp [ofText, ByteArray.toList, loop_toList, String.toUTF8]
      rfl
    · cases h
  · rintro rfl
    exact toText?_ofText s

namespace Handshake

variable {room : ℕ} {stream : List Bytes} {bytes : Bytes} {b : UInt8}

/-! ## Reading an answer -/

theorem nextByte?_of_flatten_nil (h : stream.flatten = []) : nextByte? stream = none := by
  fun_induction nextByte? stream with
  | case1 => rfl
  | case2 later ih => exact ih h
  | case3 => cases h

theorem nextByte?_of_flatten_cons (h : stream.flatten = b :: bytes) :
    ∃ rest, nextByte? stream = some (b, rest) ∧ rest.flatten = bytes := by
  fun_induction nextByte? stream with
  | case1 => cases h
  | case2 later ih => exact ih h
  | case3 c rest later =>
      rw [List.flatten_cons, List.cons_append, List.cons.injEq] at h
      exact ⟨rest :: later, by rw [h.1], h.2⟩

/-- How reading an answer ends that may have so many bytes, and what it leaves of
the bytes of the stream. -/
inductive Ends (room : ℕ) : Bytes → Except ConnectionFault Bytes → Bytes → Prop
  | answered {reply rest : Bytes} (nonzero : 0 ∉ reply) (fits : reply.length ≤ room) :
      Ends room (reply ++ 0 :: rest) (.ok reply) rest
  | closed {bytes : Bytes} (nonzero : 0 ∉ bytes) (fits : bytes.length ≤ room) :
      Ends room bytes (.error .closedInHandshake) []
  | tooLong {start rest : Bytes} (nonzero : 0 ∉ start) (long : start.length = room + 1) :
      Ends room (start ++ rest) (.error .replyTooLong) rest

theorem Ends.cons {reply : Except ConnectionFault Bytes} {rest : Bytes} (hb : b ≠ 0)
    (h : Ends room bytes reply rest) : Ends (room + 1) (b :: bytes) (reply.map (b :: ·)) rest := by
  have hmem : ∀ {front : Bytes}, 0 ∉ front → 0 ∉ b :: front :=
    fun hfront => List.not_mem_cons_of_ne_of_not_mem hb.symm hfront
  cases h with
  | answered nonzero fits => exact .answered (hmem nonzero) (Nat.succ_le_succ fits)
  | closed nonzero fits => exact .closed (hmem nonzero) (Nat.succ_le_succ fits)
  | tooLong nonzero long => exact .tooLong (hmem nonzero) (congrArg Nat.succ long)

/-- Reading goes by the bytes alone, however the stream is cut. -/
theorem readReply_ends (room : ℕ) (stream : List Bytes) :
    Ends room stream.flatten (readReply room stream).1 (readReply room stream).2.flatten := by
  induction room generalizing stream with
  | zero =>
      cases hbytes : stream.flatten with
      | nil =>
          rw [readReply, nextByte?_of_flatten_nil hbytes]
          exact .closed List.not_mem_nil le_rfl
      | cons b bytes =>
          -- With no room left one more byte is read, and only a zero byte will do.
          obtain ⟨rest, hnext, rfl⟩ := nextByte?_of_flatten_cons hbytes
          rw [readReply, hnext]
          by_cases hb : b = 0
          · subst hb
            exact .answered List.not_mem_nil le_rfl
          · simp only [if_neg hb]
            have hlong : Ends 0 ([b] ++ rest.flatten) (.error .replyTooLong) rest.flatten :=
              .tooLong (by simpa using Ne.symm hb) rfl
            exact hlong
  | succ room ih =>
      cases hbytes : stream.flatten with
      | nil =>
          rw [readReply, nextByte?_of_flatten_nil hbytes]
          exact .closed List.not_mem_nil (Nat.zero_le _)
      | cons b bytes =>
          obtain ⟨rest, hnext, rfl⟩ := nextByte?_of_flatten_cons hbytes
          rw [readReply, hnext]
          by_cases hb : b = 0
          · subst hb
            exact .answered List.not_mem_nil (Nat.zero_le _)
          · simp only [if_neg hb]
            exact (ih rest).cons hb

theorem cut_unique {reply reply' rest rest' : Bytes} (h : 0 ∉ reply) (h' : 0 ∉ reply')
    (heq : reply ++ 0 :: rest = reply' ++ 0 :: rest') : reply = reply' ∧ rest = rest' := by
  have hreply : reply = reply' := by
    rcases List.append_eq_append_iff.1 heq with ⟨more, hmore, hrest⟩ | ⟨more, hmore, hrest⟩
    · cases more with
      | nil => simpa using hmore.symm
      | cons c more =>
          rw [List.cons_append, List.cons.injEq] at hrest
          exact absurd (by simp [hmore, ← hrest.1]) h'
    · cases more with
      | nil => simpa using hmore
      | cons c more =>
          rw [List.cons_append, List.cons.injEq] at hrest
          exact absurd (by simp [hmore, ← hrest.1]) h
  subst hreply
  simpa using heq

/-- A zero byte that comes in time ends the answer, and nothing after it is read. -/
theorem Ends.of_zero {outcome : Except ConnectionFault Bytes} {reply left rest : Bytes}
    (h : Ends room (reply ++ 0 :: left) outcome rest) (hzero : 0 ∉ reply)
    (hroom : reply.length ≤ room) : outcome = .ok reply ∧ rest = left := by
  generalize hbytes : reply ++ 0 :: left = bytes at h
  cases h with
  | answered nonzero fits =>
      obtain ⟨rfl, rfl⟩ := cut_unique hzero nonzero hbytes
      exact ⟨rfl, rfl⟩
  | closed nonzero fits => exact absurd (by simp [← hbytes]) nonzero
  | @tooLong start rest nonzero long =>
      -- The zero byte would stand among the bytes that were read in vain.
      have hall : reply ++ [0] <+: start ++ rest := by
        rw [← hbytes]
        exact ⟨left, by simp⟩
      have hbegins : reply ++ [0] <+: start :=
        List.prefix_of_prefix_length_le hall (List.prefix_append _ _) (by simp [long, hroom])
      exact absurd (hbegins.subset (by simp)) nonzero

/-- Without such a zero byte no more than one byte too many is read. -/
theorem Ends.of_nonzero {outcome : Except ConnectionFault Bytes} {rest : Bytes}
    (h : Ends room bytes outcome rest) (hzero : 0 ∉ bytes.take (room + 1)) :
    (∃ start, bytes = start ++ rest ∧ start.length ≤ room + 1) ∧
      outcome = .error (if bytes.length ≤ room then .closedInHandshake else .replyTooLong) := by
  cases h with
  | @answered reply rest nonzero fits =>
      rw [List.take_append, List.take_of_length_le (by omega)] at hzero
      have hpos : room + 1 - reply.length = (room - reply.length) + 1 := by omega
      exact absurd (by simp [hpos]) hzero
  | closed nonzero fits => exact ⟨⟨bytes, by simp, by omega⟩, by rw [if_pos fits]⟩
  | @tooLong start rest nonzero long =>
      refine ⟨⟨start, rfl, long.le⟩, ?_⟩
      rw [if_neg (by rw [List.length_append]; omega)]

/-! ## The verdict on an answer -/

theorem accept_ofText (text : String) :
    accept (Bytes.ofText text) =
      if text = success then .ok () else .error (.handshakeRejected text) := by
  rw [accept, Bytes.toText?_ofText]

theorem accept_of_not_text {reply : Bytes} (h : ∀ text, reply ≠ Bytes.ofText text) :
    accept reply = .error .replyNotText := by
  have hnone : reply.toText? = none := by
    apply Option.eq_none_iff_forall_ne_some.2
    intro text htext
    exact h text (Bytes.toText?_eq_some_iff.1 htext)
  rw [accept, hnone]

theorem accept_eq_ok_iff {reply : Bytes} :
    accept reply = .ok () ↔ reply = Bytes.ofText success := by
  constructor
  · intro h
    by_cases htext : ∃ text, reply = Bytes.ofText text
    · obtain ⟨text, rfl⟩ := htext
      rw [accept_ofText] at h
      split at h
      · next hsuccess => rw [hsuccess]
      · cases h
    · rw [accept_of_not_text (not_exists.1 htext)] at h
      cases h
  · rintro rfl
    rw [accept_ofText, if_pos rfl]

/-! ## What a server reads -/

def takeFront? (count : ℕ) (bytes : Bytes) : Option (Bytes × Bytes) :=
  if count ≤ bytes.length then some (bytes.take count, bytes.drop count) else none

theorem takeFront?_append {count : ℕ} {front : Bytes} (h : front.length = count)
    (rest : Bytes) : takeFront? count (front ++ rest) = some (front, rest) := by
  subst h
  simp [takeFront?]

/-- The key with which a client opens a connection, and the bytes after the opening.
The protocol version comes first, then the length of the key and the key, and at last
the form of messages. -/
def readOpening? (bytes : Bytes) : Option (String × Bytes) := do
  let (magic, bytes) ← takeFront? 4 bytes
  guard (ofLittleEndian magic = version)
  let (length, bytes) ← takeFront? 4 bytes
  let (key, bytes) ← takeFront? (ofLittleEndian length) bytes
  let (form, bytes) ← takeFront? 4 bytes
  guard (ofLittleEndian form = jsonMessages)
  return (← key.toText?, bytes)

theorem readOpening?_encode {authKey : Option String}
    (hkey : (Bytes.ofText (authKey.getD "")).length ≤ 0xFFFFFFFF) :
    ∃ sent, encode authKey = .ok sent ∧ readOpening? sent = some (authKey.getD "", []) := by
  refine ⟨_, if_neg (by omega), ?_⟩
  have hlength : ofLittleEndian (littleEndian (Bytes.ofText (authKey.getD "")).length 4) =
      (Bytes.ofText (authKey.getD "")).length := ofLittleEndian_littleEndian (by omega)
  have hversion : ofLittleEndian (littleEndian version 4) = version := by decide
  have hform : ofLittleEndian (littleEndian jsonMessages 4) = jsonMessages := by decide
  have hlast := takeFront?_append (length_littleEndian jsonMessages 4) []
  rw [List.append_nil] at hlast
  simp [readOpening?, List.append_assoc, takeFront?_append (length_littleEndian _ _),
    takeFront?_append rfl, hlength, hversion, hform, hlast, Bytes.toText?_ofText]

/-! ## The whole exchange -/

/-- What an exchange comes to, given the bytes that a server sends. -/
structure Concluded (authKey : Option String) (bytes : Bytes)
    (outcome : Except ConnectionFault Unit) (sent : Bytes) (unread : List Bytes) : Prop where
  /-- The server reads the key and nothing after the opening. -/
  opening : readOpening? sent = some (authKey.getD "", [])
  ok_iff : outcome = .ok () ↔ Bytes.ofText success ++ [0] <+: bytes
  /-- All that follows a zero byte in time is left, -/
  unread_eq : ∀ reply rest, bytes = reply ++ 0 :: rest → 0 ∉ reply →
    reply.length ≤ replyLimit → unread.flatten = rest
  /-- and the frames it consists of are decoded from there. -/
  decodes : ∀ reply frames limit, bytes = reply ++ 0 :: Frame.stream frames → 0 ∉ reply →
    reply.length ≤ replyLimit → (∀ f ∈ frames, f.Fits limit) →
    Frame.decodePieces limit [] unread = .ok (frames, [])
  /-- Any other text is reported as it is. -/
  rejected : ∀ text rest, bytes = Bytes.ofText text ++ 0 :: rest → 0 ∉ Bytes.ofText text →
    (Bytes.ofText text).length ≤ replyLimit → text ≠ success →
    ∃ cause, outcome = .error cause ∧
      (Fault.connection cause).message =
        "connection error: Server rejected handshake: " ++ text
  notText : ∀ reply rest, bytes = reply ++ 0 :: rest → 0 ∉ reply →
    reply.length ≤ replyLimit → (∀ text, reply ≠ Bytes.ofText text) →
    outcome = .error .replyNotText
  /-- Without a zero byte in time no more than one byte past the limit is read. -/
  unanswered : 0 ∉ bytes.take (replyLimit + 1) →
    (∃ start, bytes = start ++ unread.flatten ∧ start.length ≤ replyLimit + 1) ∧
      outcome = .error
        (if bytes.length ≤ replyLimit then .closedInHandshake else .replyTooLong)

theorem exists_cut_of_mem_take {bytes : Bytes} {count : ℕ} (h : 0 ∈ bytes.take (count + 1)) :
    ∃ reply rest, bytes = reply ++ 0 :: rest ∧ 0 ∉ reply ∧ reply.length ≤ count := by
  obtain ⟨reply, more, htake, hzero⟩ := List.eq_append_cons_of_mem h
  have hlength := congrArg List.length htake
  rw [List.length_take, List.length_append, List.length_cons] at hlength
  refine ⟨reply, more ++ bytes.drop (count + 1), ?_, hzero, by omega⟩
  rw [← List.cons_append, ← List.append_assoc, ← htake, List.take_append_drop]

theorem success_prefix_iff {reply rest : Bytes} (hzero : 0 ∉ reply) :
    Bytes.ofText success ++ [0] <+: reply ++ 0 :: rest ↔ reply = Bytes.ofText success := by
  have hsuccess : 0 ∉ Bytes.ofText success := by decide +kernel
  constructor
  · rintro ⟨more, hmore⟩
    rw [List.append_assoc] at hmore
    exact (cut_unique hsuccess hzero hmore).1.symm
  · rintro rfl
    exact ⟨rest, by simp⟩

theorem mem_take_of_success {bytes : Bytes}
    (h : Bytes.ofText success ++ [0] <+: bytes) : 0 ∈ bytes.take (replyLimit + 1) := by
  obtain ⟨rest, rfl⟩ := h
  have hlength : (Bytes.ofText success ++ [0]).length = 8 := by decide +kernel
  rw [List.take_append, List.take_of_length_le (by rw [hlength]; decide)]
  simp

/-- A client whose key fits sends what the server reads the key from, and accepts
exactly the answer that accepts it.  What it reads of the stream is the answer and no
byte more, in whatever pieces the stream arrives, and each other answer, like the lack
of one, has its fault. -/
theorem exchange_concluded {authKey : Option String}
    (hkey : (Bytes.ofText (authKey.getD "")).length ≤ 0xFFFFFFFF) (server : List Bytes) :
    ∃ outcome sent unread, exchange authKey server = (outcome, sent, unread) ∧
      Concluded authKey server.flatten outcome sent unread := by
  obtain ⟨sent, hsent, hopening⟩ := readOpening?_encode hkey
  have hends := readReply_ends replyLimit server
  generalize hread : readReply replyLimit server = result at hends
  obtain ⟨reply?, unread⟩ := result
  have hzero : ∀ reply rest, server.flatten = reply ++ 0 :: rest → 0 ∉ reply →
      reply.length ≤ replyLimit → reply?.bind accept = accept reply ∧ unread.flatten = rest := by
    intro reply rest hbytes hzero hroom
    rw [hbytes] at hends
    obtain ⟨hreply, hrest⟩ := hends.of_zero hzero hroom
    exact ⟨by rw [show reply? = .ok reply from hreply]; rfl, hrest⟩
  refine ⟨reply?.bind accept, sent, unread, by rw [exchange, hsent]; simp only [hread], ?_⟩
  constructor
  case opening => exact hopening
  case ok_iff =>
    by_cases htake : 0 ∈ server.flatten.take (replyLimit + 1)
    · obtain ⟨reply, rest, hbytes, hnonzero, hroom⟩ := exists_cut_of_mem_take htake
      rw [(hzero reply rest hbytes hnonzero hroom).1, accept_eq_ok_iff, hbytes,
        success_prefix_iff hnonzero]
    · -- Reading fails, and no beginning without a zero byte accepts.
      have herror : reply? = _ := (hends.of_nonzero htake).2
      constructor
      · intro hok
        rw [herror] at hok
        cases hok
      · intro hbegins
        exact absurd (mem_take_of_success hbegins) htake
  case unread_eq =>
    intro reply rest hbytes hnonzero hroom
    exact (hzero reply rest hbytes hnonzero hroom).2
  case decodes =>
    intro reply frames limit hbytes hnonzero hroom hfit
    have hstream := (hzero reply _ hbytes hnonzero hroom).2
    exact Frame.decodePieces_of_stream hfit rfl hstream
  case rejected =>
    intro text rest hbytes hnonzero hroom hother
    rw [(hzero _ rest hbytes hnonzero hroom).1, accept_ofText, if_neg hother]
    exact ⟨.handshakeRejected text, rfl, (String.append_assoc ..).symm⟩
  case notText =>
    intro reply rest hbytes hnonzero hroom hother
    rw [(hzero reply rest hbytes hnonzero hroom).1, accept_of_not_text hother]
  case unanswered =>
    intro htake
    obtain ⟨hstart, herror⟩ := hends.of_nonzero htake
    exact ⟨hstart, by rw [show reply? = _ from herror]; rfl⟩

/-- An answer that arrives in three pieces, one of them empty, with two bytes of the
first frame behind it. -/
theorem exchange_concluded_pieces :
    (Bytes.ofText ((some "key").getD "")).length ≤ 0xFFFFFFFF ∧
      ∃ sent unread,
        exchange (some "key") [[83, 85, 67], [], [67, 69, 83, 83, 0, 1, 2]] =
          (.ok (), sent, unread) ∧
        readOpening? sent = some ("key", []) ∧ unread.flatten = [1, 2] := by
  have hkey : (Bytes.ofText ((some "key").getD "")).length ≤ 0xFFFFFFFF := by decide +kernel
  obtain ⟨outcome, sent, unread, hexchange, hconcluded⟩ :=
    exchange_concluded hkey [[83, 85, 67], [], [67, 69, 83, 83, 0, 1, 2]]
  have hbegins : Bytes.ofText success ++ [0] <+: [83, 85, 67, 67, 69, 83, 83, 0, 1, 2] :=
    ⟨[1, 2], by decide +kernel⟩
  have hok : outcome = .ok () := hconcluded.ok_iff.2 hbegins
  rw [hok] at hexchange
  exact ⟨hkey, sent, unread, hexchange, hconcluded.opening,
    hconcluded.unread_eq [83, 85, 67, 67, 69, 83, 83] [1, 2] rfl (by decide) (by decide)⟩

end Handshake

end DocumentQuery
