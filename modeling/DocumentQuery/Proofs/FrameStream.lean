import DocumentQuery.Client.Frame
import Mathlib.Tactic

/-!
# Streams of frames

Bytes arrive in pieces that have nothing to do with frames.  A reader puts each
piece behind what it has not used yet and takes frames off the front until none
is complete.  What it has not used is then the beginning of one frame at most,
and together with the bytes still to come it makes up the frames still to come;
hence the frames come out as they went in, however the stream was cut.
-/

namespace DocumentQuery

/-! ## Little-endian numbers -/

theorem ofLittleEndian_littleEndian {n count : ℕ} (hn : n < 256 ^ count) :
    ofLittleEndian (littleEndian n count) = n := by
  induction count generalizing n with
  | zero =>
      have hzero : n = 0 := by simpa using hn
      rw [littleEndian, ofLittleEndian, hzero]
  | succ count ih =>
      have hhigh : n / 256 < 256 ^ count := by
        rw [pow_succ] at hn
        exact Nat.div_lt_of_lt_mul (by rwa [mul_comm] at hn)
      have hlow : (UInt8.ofNat (n % 256)).toNat = n % 256 := by
        rw [UInt8.toNat_ofNat']
        exact Nat.mod_eq_of_lt (Nat.mod_lt _ (by norm_num))
      rw [littleEndian, ofLittleEndian, hlow, ih hhigh]
      exact Nat.mod_add_div n 256

namespace Frame

/-! ## Reading a stream -/

/-- A decoded frame was at the front of the buffer. -/
theorem length_lt_of_decode {limit : ℕ} {buffer rest : Bytes} {f : Frame}
    (h : decode limit buffer = .ok (some (f, rest))) :
    rest.length < buffer.length := by
  unfold decode at h
  split at h
  · cases h
  · next hheader =>
    dsimp only at h
    split at h
    · cases h
    · split at h
      · cases h
      · cases h
        simp only [List.length_drop, headerLength] at hheader ⊢
        omega

/-- Takes frames off the front of a buffer until none is complete: the frames,
and the bytes that are left. -/
def decodeAll (limit : ℕ) (buffer : Bytes) :
    Except ConnectionFault (List Frame × Bytes) :=
  match h : decode limit buffer with
  | .error fault => .error fault
  | .ok none => .ok ([], buffer)
  | .ok (some (f, rest)) =>
    have := length_lt_of_decode h
    match decodeAll limit rest with
    | .error fault => .error fault
    | .ok (frames, left) => .ok (f :: frames, left)
  termination_by buffer.length

/-- Puts one piece after the other behind the bytes that are left, and takes off
all complete frames each time. -/
def decodePieces (limit : ℕ) (left : Bytes) :
    List Bytes → Except ConnectionFault (List Frame × Bytes)
  | [] => .ok ([], left)
  | piece :: later => do
    let (frames, left) ← decodeAll limit (left ++ piece)
    let (others, left) ← decodePieces limit left later
    return (frames ++ others, left)

/-- Puts one frame after the other into an empty buffer. -/
def encodeAll (limit : ℕ) (frames : List Frame) : Except ConnectionFault Bytes :=
  frames.foldlM (fun buffer f => encode limit f buffer) []

theorem decodeAll_of_none {limit : ℕ} {buffer : Bytes}
    (h : decode limit buffer = .ok none) :
    decodeAll limit buffer = .ok ([], buffer) := by
  rw [decodeAll]
  split
  · next hdecode => cases h.symm.trans hdecode
  · rfl
  · next hdecode => cases h.symm.trans hdecode

theorem decodeAll_of_some {limit : ℕ} {buffer rest left : Bytes} {f : Frame}
    {frames : List Frame} (h : decode limit buffer = .ok (some (f, rest)))
    (hrest : decodeAll limit rest = .ok (frames, left)) :
    decodeAll limit buffer = .ok (f :: frames, left) := by
  rw [decodeAll]
  split
  · next hdecode => cases h.symm.trans hdecode
  · next hdecode => cases h.symm.trans hdecode
  · next hdecode =>
    cases h.symm.trans hdecode
    rw [hrest]

/-! ## One frame -/

/-- A payload that is within the limit and whose length fits four bytes. -/
structure Fits (limit : ℕ) (f : Frame) : Prop where
  le_limit : f.payload.length ≤ limit
  le_word : f.payload.length ≤ 0xFFFFFFFF

/-- The bytes of a frame before its payload. -/
def header (f : Frame) : Bytes :=
  littleEndian f.token.toNat 8 ++ littleEndian f.payload.length 4

theorem toBytes_eq (f : Frame) : f.toBytes = f.header ++ f.payload := rfl

theorem length_header (f : Frame) : f.header.length = headerLength := by
  rw [header, List.length_append, length_littleEndian, length_littleEndian]
  rfl

variable {limit : ℕ} {f : Frame}

theorem Fits.encode (hf : f.Fits limit) (buffer : Bytes) :
    encode limit f buffer = .ok (buffer ++ f.toBytes) := by
  have hlimit := hf.le_limit
  have hword := hf.le_word
  rw [Frame.encode, if_neg (by omega), if_neg (by omega)]

/-- Once the header of a frame is there, the frame is decoded as soon as its
payload is complete. -/
theorem Fits.decode_header_append (hf : f.Fits limit) (rest : Bytes) :
    decode limit (f.header ++ rest) =
      if rest.length < f.payload.length then .ok none
      else .ok (some (⟨f.token, rest.take f.payload.length⟩,
        rest.drop f.payload.length)) := by
  have hlength := f.length_header
  have htoken : ofLittleEndian ((f.header ++ rest).take 8) = f.token.toNat := by
    rw [header, List.append_assoc,
      List.take_left' (length_littleEndian _ _)]
    exact ofLittleEndian_littleEndian f.token.toNat_lt
  have hpayload : ofLittleEndian (((f.header ++ rest).drop 8).take 4) =
      f.payload.length := by
    have hword := hf.le_word
    rw [header, List.append_assoc, List.drop_left' (length_littleEndian _ _),
      List.take_left' (length_littleEndian _ _)]
    exact ofLittleEndian_littleEndian (by omega)
  have hrest : (f.header ++ rest).drop headerLength = rest :=
    List.drop_left' hlength
  have hlong : ¬ (f.header ++ rest).length < headerLength := by
    rw [List.length_append]
    omega
  rw [decode, if_neg hlong, htoken, hpayload, hrest,
    if_neg (Nat.not_lt.2 hf.le_limit), UInt64.ofNat_toNat]

theorem Fits.decode_toBytes_append (hf : f.Fits limit) (rest : Bytes) :
    decode limit (f.toBytes ++ rest) = .ok (some (f, rest)) := by
  rw [toBytes_eq, List.append_assoc, hf.decode_header_append, if_neg (by simp),
    List.take_left' rfl, List.drop_left' rfl]

/-- Of a frame that has not come completely, nothing is decoded. -/
theorem Fits.decode_part (hf : f.Fits limit) {part missing : Bytes}
    (hpart : part ++ missing = f.toBytes) (hmissing : missing ≠ []) :
    decode limit part = .ok none := by
  by_cases hshort : part.length < headerLength
  · rw [decode, if_pos hshort]
  · rw [Nat.not_lt, ← f.length_header] at hshort
    rw [toBytes_eq] at hpart
    obtain ⟨rest, rfl⟩ :=
      List.prefix_of_prefix_length_le (List.prefix_append _ _)
        (hpart ▸ List.prefix_append part missing) hshort
    rw [List.append_assoc] at hpart
    have hpayload : rest ++ missing = f.payload := List.append_cancel_left hpart
    have hpos := List.length_pos_iff.2 hmissing
    have hless : rest.length < f.payload.length := by
      rw [← hpayload, List.length_append]
      omega
    rw [hf.decode_header_append, if_pos hless]

/-! ## All frames -/

/-- The bytes of frames one after the other. -/
def stream (frames : List Frame) : Bytes := frames.flatMap toBytes

theorem encodeAll_eq {frames : List Frame} (hframes : ∀ f ∈ frames, f.Fits limit) :
    encodeAll limit frames = .ok (stream frames) := by
  suffices ∀ buffer : Bytes,
      frames.foldlM (fun buffer f => encode limit f buffer) buffer =
        .ok (buffer ++ stream frames) from this []
  induction frames with
  | nil =>
      intro buffer
      rw [stream, List.flatMap_nil, List.append_nil]
      rfl
  | cons f rest ih =>
      intro buffer
      have hf := hframes f List.mem_cons_self
      rw [List.foldlM_cons, hf.encode]
      refine (ih (fun g hg => hframes g (List.mem_cons_of_mem _ hg)) _).trans ?_
      rw [stream, stream, List.flatMap_cons, List.append_assoc]

/-- A list cut in two ways: the first cut is not before the second, or some items
lie between them. -/
theorem append_cut {α : Type} {a b c d : List α} (h : a ++ b = c ++ d) :
    (∃ after, a = c ++ after ∧ after ++ b = d) ∨
      ∃ missing, missing ≠ [] ∧ a ++ missing = c ∧ missing ++ d = b := by
  rcases List.append_eq_append_iff.1 h with
    ⟨missing, hc, hb⟩ | ⟨after, ha, hd⟩
  · by_cases hmissing : missing = []
    · subst hmissing
      exact .inl ⟨[], by simp [hc], by simp [hb]⟩
    · exact .inr ⟨missing, hmissing, hc.symm, hb.symm⟩
  · exact .inl ⟨after, ha, hd.symm⟩

/-- Taking frames off the beginning of a stream leaves the beginning of a stream
of the others, with none of them complete. -/
theorem decodeAll_of_stream {frames : List Frame}
    (hframes : ∀ f ∈ frames, f.Fits limit) {buffer later : Bytes}
    (hstream : buffer ++ later = stream frames) :
    ∃ done others left, decodeAll limit buffer = .ok (done, left) ∧
      frames = done ++ others ∧ left ++ later = stream others ∧
      decode limit left = .ok none := by
  induction frames generalizing buffer with
  | nil =>
      obtain ⟨rfl, rfl⟩ := List.append_eq_nil_iff.1 hstream
      have hnone : decode limit [] = .ok none := rfl
      exact ⟨[], [], [], decodeAll_of_none hnone, rfl, rfl, hnone⟩
  | cons f rest ih =>
      have hf := hframes f List.mem_cons_self
      have hcons : stream (f :: rest) = f.toBytes ++ stream rest := rfl
      rw [hcons] at hstream
      rcases append_cut hstream with ⟨after, rfl, hafter⟩ |
        ⟨missing, hmissing, hpart, hlater⟩
      · obtain ⟨done, others, left, hall, hsplit, hothers, hnone⟩ :=
          ih (fun g hg => hframes g (List.mem_cons_of_mem _ hg)) hafter
        exact ⟨f :: done, others, left,
          decodeAll_of_some (hf.decode_toBytes_append after) hall,
          by rw [hsplit, List.cons_append], hothers, hnone⟩
      · have hnone := hf.decode_part hpart hmissing
        refine ⟨[], f :: rest, buffer, decodeAll_of_none hnone, rfl, ?_, hnone⟩
        rw [hcons, ← hlater, ← hpart, List.append_assoc]

/-- If what is left and the pieces to come are a stream of frames, then these
come out, and nothing is left in the end. -/
theorem decodePieces_of_stream {frames : List Frame}
    (hframes : ∀ f ∈ frames, f.Fits limit) {left : Bytes} {pieces : List Bytes}
    (hnone : decode limit left = .ok none)
    (hstream : left ++ pieces.flatten = stream frames) :
    decodePieces limit left pieces = .ok (frames, []) := by
  induction pieces generalizing frames left with
  | nil =>
      rw [List.flatten_nil, List.append_nil] at hstream
      cases frames with
      | nil =>
          have hleft : left = [] := hstream
          rw [decodePieces, hleft]
      | cons f rest =>
          have hf := hframes f List.mem_cons_self
          have hsome := hf.decode_toBytes_append (stream rest)
          have hcons : f.toBytes ++ stream rest = left := hstream.symm
          rw [hcons, hnone] at hsome
          cases hsome
  | cons piece later ih =>
      rw [List.flatten_cons, ← List.append_assoc] at hstream
      obtain ⟨done, others, left', hall, rfl, hothers, hnone'⟩ :=
        decodeAll_of_stream hframes hstream
      have hlater := ih
        (fun f hf => hframes f (List.mem_append_right _ hf)) hnone' hothers
      rw [decodePieces, hall]
      simp only [bind, Except.bind, hlater]
      rfl

/-- Frames that fit are all encoded, and however their bytes are cut into pieces,
reading the pieces one after the other never fails, gives back the frames in
their order, and leaves nothing. -/
theorem decodePieces_encodeAll {limit : ℕ} {frames : List Frame}
    (hframes : ∀ f ∈ frames,
      f.payload.length ≤ limit ∧ f.payload.length ≤ 0xFFFFFFFF) :
    ∃ bytes, encodeAll limit frames = .ok bytes ∧
      ∀ pieces : List Bytes, pieces.flatten = bytes →
        decodePieces limit [] pieces = .ok (frames, []) := by
  have hfit : ∀ f ∈ frames, f.Fits limit :=
    fun f hf => ⟨(hframes f hf).1, (hframes f hf).2⟩
  refine ⟨stream frames, encodeAll_eq hfit, fun pieces hpieces => ?_⟩
  have hnone : decode limit [] = .ok none := rfl
  exact decodePieces_of_stream hfit hnone hpieces

/-- A frame with a payload and one without, with the cuts inside the token of
the first, inside its length and between the two, and an empty piece. -/
theorem decodePieces_encodeAll_cut :
    let frames : List Frame := [⟨258, [7]⟩, ⟨3, []⟩]
    (∀ f ∈ frames, f.payload.length ≤ 1 ∧ f.payload.length ≤ 0xFFFFFFFF) ∧
      decodePieces 1 []
        [[2, 1, 0, 0], [0, 0, 0, 0, 1], [], [0, 0, 0, 7],
          [3, 0, 0, 0, 0, 0, 0, 0, 0, 0, 0, 0]] = .ok (frames, []) := by
  have hframes : ∀ f ∈ ([⟨258, [7]⟩, ⟨3, []⟩] : List Frame),
      f.payload.length ≤ 1 ∧ f.payload.length ≤ 0xFFFFFFFF := by decide
  obtain ⟨bytes, hbytes, hpieces⟩ := decodePieces_encodeAll hframes
  have hvalue : encodeAll 1 [⟨258, [7]⟩, ⟨3, []⟩] = .ok
      [2, 1, 0, 0, 0, 0, 0, 0, 1, 0, 0, 0, 7,
        3, 0, 0, 0, 0, 0, 0, 0, 0, 0, 0, 0] := rfl
  cases hvalue.symm.trans hbytes
  exact ⟨hframes, hpieces _ rfl⟩

end Frame

end DocumentQuery
