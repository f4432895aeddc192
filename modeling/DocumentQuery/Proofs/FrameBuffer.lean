import DocumentQuery.Proofs.FrameStream

/-!
# Frames in a buffer

A reader and a writer of frames each work on a buffer that they change in place.
A frame is read only if its writer would have accepted it, and then exactly the
bytes that the writer had put there are gone.  In every other case the buffer
stays as it is; a length over the limit is then at its front for good, however
many bytes come behind it.
-/

namespace DocumentQuery

/-! ## Little-endian numbers -/

theorem ofLittleEndian_lt {bytes : Bytes} {count : ℕ}
    (hcount : bytes.length ≤ count) : ofLittleEndian bytes < 256 ^ count := by
  have hlt : ofLittleEndian bytes < 256 ^ bytes.length := by
    clear hcount
    induction bytes with
    | nil => simp [ofLittleEndian]
    | cons b rest ih =>
        have hb := b.toNat_lt
        simp only [ofLittleEndian, List.length_cons, pow_succ]
        omega
  exact hlt.trans_le (Nat.pow_le_pow_right (by omega) hcount)

theorem littleEndian_ofLittleEndian {bytes : Bytes} {count : ℕ}
    (hcount : bytes.length = count) :
    littleEndian (ofLittleEndian bytes) count = bytes := by
  subst hcount
  induction bytes with
  | nil => rfl
  | cons b rest ih =>
      have hb : b.toNat < 256 := b.toNat_lt
      have hlow : (b.toNat + 256 * ofLittleEndian rest) % 256 = b.toNat := by
        omega
      have hhigh : (b.toNat + 256 * ofLittleEndian rest) / 256 =
          ofLittleEndian rest := by omega
      rw [ofLittleEndian, List.length_cons, littleEndian, hlow, hhigh, ih,
        UInt8.ofNat_toNat]

namespace Frame

/-! ## Calls on a buffer -/

/-- A call that changes a buffer in place, whether or not it fails. -/
abbrev BufferCall (α : Type) := ExceptT ConnectionFault (StateM Bytes) α

/-- What a call returns, and what it leaves in the buffer. -/
def BufferCall.on {α : Type} (call : BufferCall α) (buffer : Bytes) :
    Except ConnectionFault α × Bytes :=
  (ExceptT.run call).run buffer

namespace BufferCall

variable {α β : Type}

def takeFront (count : ℕ) : BufferCall Bytes :=
  modifyGet fun buffer => (buffer.take count, buffer.drop count)

def append (bytes : Bytes) : BufferCall Unit := modify (· ++ bytes)

@[simp] theorem on_pure (a : α) (buffer : Bytes) :
    on (pure a) buffer = (.ok a, buffer) :=
  rfl

@[simp] theorem on_throw (fault : ConnectionFault) (buffer : Bytes) :
    on (throw fault : BufferCall α) buffer = (.error fault, buffer) :=
  rfl

@[simp] theorem on_get (buffer : Bytes) : on get buffer = (.ok buffer, buffer) :=
  rfl

@[simp] theorem on_takeFront (count : ℕ) (buffer : Bytes) :
    (takeFront count).on buffer = (.ok (buffer.take count), buffer.drop count) :=
  rfl

@[simp] theorem on_append (bytes buffer : Bytes) :
    (append bytes).on buffer = (.ok (), buffer ++ bytes) :=
  rfl

@[simp] theorem on_bind (call : BufferCall α) (next : α → BufferCall β)
    (buffer : Bytes) :
    on (call >>= next) buffer =
      match call.on buffer with
      | (.ok a, after) => (next a).on after
      | (.error fault, after) => (.error fault, after) := by
  change on (ExceptT.bind call next) buffer = _
  unfold on ExceptT.bind ExceptT.run StateT.run ExceptT.mk
  simp only [bind, StateT.bind]
  cases call buffer with
  | mk result after => cases result <;> rfl

end BufferCall

open BufferCall

/-- The length of the payload as the header at the front of a buffer has it. -/
def declaredLength (buffer : Bytes) : ℕ := ofLittleEndian ((buffer.drop 8).take 4)

/-- Takes the frame at the front off the buffer, if it is complete. -/
def decodeFrom (limit : ℕ) : BufferCall (Option Frame) := do
  let buffer ← get
  if buffer.length < headerLength then
    return none
  let token := ofLittleEndian (buffer.take 8)
  let length := declaredLength buffer
  if limit < length then
    throw (.frameTooLong length limit)
  if buffer.length < headerLength + length then
    return none
  let _ ← takeFront headerLength
  let payload ← takeFront length
  return some ⟨.ofNat token, payload⟩

/-- Puts a frame at the end of the buffer, if its payload is not too long. -/
def encodeInto (limit : ℕ) (f : Frame) : BufferCall Unit := do
  if limit < f.payload.length then
    throw (.frameTooLong f.payload.length limit)
  if 0x100000000 ≤ f.payload.length then
    throw (.other ("Frame too large: " ++ toString f.payload.length))
  append (littleEndian f.token.toNat 8)
  append (littleEndian f.payload.length 4)
  append f.payload

variable {limit : ℕ} {buffer : Bytes} {f : Frame}

theorem decode_eq (limit : ℕ) (buffer : Bytes) :
    decode limit buffer =
      if buffer.length < headerLength then .ok none
      else if limit < declaredLength buffer then
        .error (.frameTooLong (declaredLength buffer) limit)
      else if buffer.length < headerLength + declaredLength buffer then .ok none
      else
        .ok (some (⟨.ofNat (ofLittleEndian (buffer.take 8)),
          (buffer.drop headerLength).take (declaredLength buffer)⟩,
          (buffer.drop headerLength).drop (declaredLength buffer))) := by
  have hpayload : ¬ buffer.length < headerLength →
      ((buffer.drop headerLength).length < declaredLength buffer ↔
        buffer.length < headerLength + declaredLength buffer) := by
    intro hheader
    rw [List.length_drop]
    omega
  unfold decode
  by_cases hheader : buffer.length < headerLength
  · simp only [if_pos hheader]
  · simp only [if_neg hheader, ← hpayload hheader]
    rfl

/-- A frame that is decoded is taken off the buffer, and everything else leaves
the buffer as it is. -/
theorem on_decodeFrom (limit : ℕ) (buffer : Bytes) :
    (decodeFrom limit).on buffer =
      match decode limit buffer with
      | .ok (some (f, rest)) => (.ok (some f), rest)
      | .ok none => (.ok none, buffer)
      | .error fault => (.error fault, buffer) := by
  rw [decode_eq]
  by_cases hheader : buffer.length < headerLength
  · simp [decodeFrom, hheader]
  by_cases hlimit : limit < declaredLength buffer
  · simp [decodeFrom, hheader, hlimit]
  by_cases hpayload : buffer.length < headerLength + declaredLength buffer
  · simp [decodeFrom, hheader, hlimit, hpayload]
  · simp [decodeFrom, hheader, hlimit, hpayload, -bind_pure_comp]

theorem on_encodeInto (limit : ℕ) (f : Frame) (buffer : Bytes) :
    (encodeInto limit f).on buffer =
      match encode limit f buffer with
      | .ok after => (.ok (), after)
      | .error fault => (.error fault, buffer) := by
  by_cases hlimit : limit < f.payload.length
  · simp [encodeInto, encode, hlimit]
  by_cases hword : 0x100000000 ≤ f.payload.length
  · simp [encodeInto, encode, hlimit, hword]
  · simp [encodeInto, encode, hlimit, hword, toBytes]

/-! ## What decoding finds -/

/-- The frame at the front of the buffer is not complete, as far as one can
tell. -/
def IsPartial (limit : ℕ) (buffer : Bytes) : Prop :=
  buffer.length < headerLength ∨
    declaredLength buffer ≤ limit ∧
      buffer.length < headerLength + declaredLength buffer

/-- The header at the front of the buffer announces more than the limit. -/
def IsOversized (limit : ℕ) (buffer : Bytes) : Prop :=
  headerLength ≤ buffer.length ∧ limit < declaredLength buffer

/-- The frame that the front of a buffer holds, once it is complete. -/
def front (buffer : Bytes) : Frame :=
  ⟨.ofNat (ofLittleEndian (buffer.take 8)),
    (buffer.drop headerLength).take (declaredLength buffer)⟩

theorem length_payload_front
    (hcomplete : headerLength + declaredLength buffer ≤ buffer.length) :
    (front buffer).payload.length = declaredLength buffer := by
  rw [front, List.length_take, List.length_drop]
  omega

/-- A frame is written as the very bytes that it was read from. -/
theorem toBytes_front_append
    (hcomplete : headerLength + declaredLength buffer ≤ buffer.length) :
    (front buffer).toBytes ++
      (buffer.drop headerLength).drop (declaredLength buffer) = buffer := by
  have hlong : 12 ≤ buffer.length := (Nat.le_add_right _ _).trans hcomplete
  have htokenLength : (buffer.take 8).length = 8 := by
    rw [List.length_take]
    omega
  have hwordLength : ((buffer.drop 8).take 4).length = 4 := by
    rw [List.length_take, List.length_drop]
    omega
  have htoken : littleEndian (front buffer).token.toNat 8 = buffer.take 8 := by
    have hlt : ofLittleEndian (buffer.take 8) < 2 ^ 64 :=
      ofLittleEndian_lt htokenLength.le
    rw [front, UInt64.toNat_ofNat', Nat.mod_eq_of_lt hlt]
    exact littleEndian_ofLittleEndian htokenLength
  have hword : littleEndian (front buffer).payload.length 4 =
      (buffer.drop 8).take 4 := by
    rw [length_payload_front hcomplete]
    exact littleEndian_ofLittleEndian hwordLength
  have hrest : buffer.drop headerLength = (buffer.drop 8).drop 4 := by
    rw [List.drop_drop, headerLength]
  rw [toBytes, htoken, hword, front, List.append_assoc,
    List.take_append_drop, hrest, List.append_assoc, List.take_append_drop,
    List.take_append_drop]

theorem fits_front
    (hcomplete : headerLength + declaredLength buffer ≤ buffer.length)
    (hlimit : declaredLength buffer ≤ limit) : (front buffer).Fits limit := by
  have hword : declaredLength buffer < 256 ^ 4 :=
    ofLittleEndian_lt (List.length_take_le ..)
  constructor <;> rw [length_payload_front hcomplete]
  · exact hlimit
  · omega

/-- Decoding does one of three things, by what is at the front of the buffer. -/
theorem decodeFrom_cases (limit : ℕ) (buffer : Bytes) :
    (IsPartial limit buffer ∧ ¬ IsOversized limit buffer ∧
      (decodeFrom limit).on buffer = (.ok none, buffer)) ∨
    (IsOversized limit buffer ∧ ¬ IsPartial limit buffer ∧
      (decodeFrom limit).on buffer =
        (.error (.frameTooLong (declaredLength buffer) limit), buffer)) ∨
    (¬ IsPartial limit buffer ∧ ¬ IsOversized limit buffer ∧
      ∃ f after, (decodeFrom limit).on buffer = (.ok (some f), after) ∧
        f.Fits limit ∧ buffer = f.toBytes ++ after) := by
  rw [on_decodeFrom, decode_eq]
  unfold IsPartial IsOversized
  by_cases hheader : buffer.length < headerLength
  · rw [if_pos hheader]
    exact .inl ⟨.inl hheader, by omega, rfl⟩
  by_cases hlimit : limit < declaredLength buffer
  · rw [if_neg hheader, if_pos hlimit]
    exact .inr (.inl ⟨by omega, by omega, rfl⟩)
  by_cases hpayload : buffer.length < headerLength + declaredLength buffer
  · rw [if_neg hheader, if_neg hlimit, if_pos hpayload]
    exact .inl ⟨by omega, by omega, rfl⟩
  · rw [if_neg hheader, if_neg hlimit, if_neg hpayload]
    have hcomplete := Nat.not_lt.1 hpayload
    exact .inr (.inr ⟨by omega, by omega, front buffer, _, rfl,
      fits_front hcomplete (Nat.not_lt.1 hlimit),
      (toBytes_front_append hcomplete).symm⟩)

/-! ## Failing for good -/

theorem IsOversized.append (h : IsOversized limit buffer) (more : Bytes) :
    IsOversized limit (buffer ++ more) ∧
      declaredLength (buffer ++ more) = declaredLength buffer := by
  have hlong : 12 ≤ buffer.length := h.1
  -- What is behind a header does not change it.
  have hsame : declaredLength (buffer ++ more) = declaredLength buffer := by
    have hword : 4 ≤ (buffer.drop 8).length := by
      rw [List.length_drop]
      omega
    rw [declaredLength, List.drop_append_of_le_length (by omega),
      List.take_append_of_le_length hword, declaredLength]
  refine ⟨⟨?_, ?_⟩, hsame⟩
  · rw [List.length_append]
    exact h.1.trans (Nat.le_add_right _ _)
  · rw [hsame]
    exact h.2

theorem IsOversized.on_decodeFrom (h : IsOversized limit buffer) :
    (decodeFrom limit).on buffer =
      (.error (.frameTooLong (declaredLength buffer) limit), buffer) := by
  rcases decodeFrom_cases limit buffer with ⟨_, hnot, _⟩ | ⟨_, _, hfail⟩ |
    ⟨_, hnot, _⟩
  · exact absurd h hnot
  · exact hfail
  · exact absurd h hnot

/-- Decodes once after each piece that arrives: the results, and what is left in
the buffer. -/
def decodeAfterEach (limit : ℕ) (buffer : Bytes) :
    List Bytes → List (Except ConnectionFault (Option Frame)) × Bytes
  | [] => ([], buffer)
  | piece :: later =>
    let (result, after) := (decodeFrom limit).on (buffer ++ piece)
    let (results, left) := decodeAfterEach limit after later
    (result :: results, left)

theorem IsOversized.decodeAfterEach (h : IsOversized limit buffer)
    (pieces : List Bytes) :
    decodeAfterEach limit buffer pieces =
      (pieces.map fun _ => .error (.frameTooLong (declaredLength buffer) limit),
        buffer ++ pieces.flatten) := by
  induction pieces generalizing buffer with
  | nil => simp [Frame.decodeAfterEach]
  | cons piece later ih =>
      obtain ⟨hlong, hsame⟩ := h.append piece
      rw [Frame.decodeAfterEach, hlong.on_decodeFrom]
      simp only [ih hlong, hsame, List.map_cons, List.flatten_cons,
        List.append_assoc]

/-! ## Exactness -/

theorem Fits.encodeInto (hf : f.Fits limit) (target : Bytes) :
    (encodeInto limit f).on target = (.ok (), target ++ f.toBytes) := by
  rw [on_encodeInto, hf.encode]

theorem encodeInto_unchanged {target : Bytes} {fault : ConnectionFault}
    (h : ((encodeInto limit f).on target).1 = .error fault) :
    ((encodeInto limit f).on target).2 = target := by
  rw [on_encodeInto] at h ⊢
  cases hencode : encode limit f target with
  | ok after => simp [hencode] at h
  | error fault => rfl

/-- Decoding waits exactly for a frame that is not complete, fails exactly at an
oversized one, and in both cases leaves the buffer alone; after a failure it
fails in the same way whatever arrives.  A frame that it returns is gone from the
front of the buffer, where it stood as it is encoded.  Encoding that fails leaves
its buffer alone too. -/
theorem decodeFrom_exact (limit : ℕ) (buffer : Bytes) :
    let call := (decodeFrom limit).on buffer
    (call.1 = .ok none ↔ IsPartial limit buffer) ∧
    ((∃ fault, call.1 = .error fault) ↔ IsOversized limit buffer) ∧
    (call.1 = .ok none → call.2 = buffer) ∧
    (∀ fault, call.1 = .error fault → call.2 = buffer ∧
      ∀ pieces, decodeAfterEach limit call.2 pieces =
        (pieces.map fun _ => .error fault, buffer ++ pieces.flatten)) ∧
    (∀ f, call.1 = .ok (some f) → buffer = f.toBytes ++ call.2 ∧
      ∀ target, (encodeInto limit f).on target = (.ok (), target ++ f.toBytes)) ∧
    ∀ f target fault, ((encodeInto limit f).on target).1 = .error fault →
      ((encodeInto limit f).on target).2 = target := by
  intro call
  have hencode : ∀ f target fault,
      ((encodeInto limit f).on target).1 = .error fault →
        ((encodeInto limit f).on target).2 = target :=
    fun f target fault hfail => encodeInto_unchanged hfail
  rcases decodeFrom_cases limit buffer with ⟨hpartial, hnot, hcall⟩ |
    ⟨hoversized, hnot, hcall⟩ |
    ⟨hpartial, hoversized, f, after, hcall, hfits, hbytes⟩
  · simp only [call, hcall]
    exact ⟨by simp [hpartial], by simp [hnot], by simp, by simp, by simp, hencode⟩
  · simp only [call, hcall]
    refine ⟨by simp [hnot], by simp [hoversized], by simp, ?_, by simp, hencode⟩
    intro fault hfault
    cases hfault
    exact ⟨trivial, hoversized.decodeAfterEach⟩
  · simp only [call, hcall]
    refine ⟨by simp [hpartial], by simp [hoversized], by simp, by simp, ?_, hencode⟩
    intro found hfound
    cases hfound
    exact ⟨hbytes, hfits.encodeInto⟩

end Frame

end DocumentQuery
