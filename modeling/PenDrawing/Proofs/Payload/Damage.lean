import PenDrawing.Proofs.Payload

/-!
# Payloads whose streams are long, damaged or cut off

No more of a stream is decompressed than it takes to see that a record is too long, and the last
group of a text is filled up whether or not something is missing there.  Neither lets a wrong path
through:

* what a payload is read as is decided by all that its stream stands for, as far as a record goes
  (`decode_of_inflate`, `inflate_of_decode`), so the bound makes no difference to what is accepted
  (`decode_filled`);
* the beginning of a text stands for a beginning of its bytes, and so few bytes come out of a part
  of a stream only if the rest does not matter; so a payload that is cut off is refused, or read as
  its own path (`decode_of_cut`).
-/

namespace PenDrawing.Payload

/-! ## Texts that are filled up in part -/

/-- The base64 text of a stream with so many signs behind it that fill up its last group. -/
def filled (stream : List UInt8) (fill : Nat) : List Char :=
  letters stream ++ List.replicate fill '='

/-- A payload that was filled up is cleaned to its encoding and the filling. -/
theorem symbols_filled (stream : List UInt8) (fill : Nat) :
    symbols (filled stream fill) = Base64.encode stream ++ List.replicate fill Base64.filler := by
  have sign : ∀ c ∈ filled stream fill, Base64.isLetter c = true ∨ c = '=' := by
    intro c hc
    rcases List.mem_append.mp hc with letter | last
    · exact .inl (isLetter_of_mem_letters letter)
    · exact .inr (List.eq_of_mem_replicate last)
  have solid : ∀ c ∈ filled stream fill, Text.isBlank c = false := by
    intro c hc
    rcases sign c hc with letter | rfl
    · exact isBlank_of_isLetter letter
    · rfl
  have unterminated : (filled stream fill).getLast? ≠ some terminator := by
    intro last
    rcases sign terminator (List.mem_of_getLast? last) with letter | same
    · exact ne_terminator_of_isLetter letter rfl
    · exact absurd same (by decide)
  have signs : (List.replicate fill '=').flatMap String.utf8EncodeChar =
      List.replicate fill Base64.filler := by
    rw [List.flatMap_replicate]
    exact List.flatten_replicate_singleton
  rw [symbols_of_solid solid unterminated, filled, List.flatMap_append, flatMap_letters, signs]

/-- A text stands for its stream, however much of its last group is filled up. -/
theorem decode_pad_symbols_filled {stream : List UInt8} {fill : Nat}
    (h : fill ≤ Base64.paddingNeeded (letters stream).length) :
    Base64.decode (Base64.pad (symbols (filled stream fill))) = .ok stream := by
  rw [letters, List.length_map] at h
  rw [symbols_filled, Base64.pad_append_filler h, Base64.decode_pad_encode]

/-! ## Streams that are read no further than a record goes -/

section

variable {text : List Char} {stream : List UInt8}

/-- A sound stream decides what its text is read as: its bytes as a record, or one byte too many. -/
theorem decode_of_inflate (read : Base64.decode (Base64.pad (symbols text)) = .ok stream)
    {bytes : List UInt8} (sound : Zlib.inflate stream = .ok bytes) :
    decode text = if bytes.length ≤ Record.size then (Record.read bytes).mapError .record
      else .error (.record (.unexpectedSize (Record.size + 1))) := by
  rw [decode_of_read read, Zlib.inflateUpTo_of_inflate sound (by decide)]
  show (Record.read (bytes.take (Record.size + 1))).mapError DecodeError.record = _
  by_cases fits : bytes.length ≤ Record.size
  · rw [if_pos fits, List.take_of_length_le (Nat.le_succ_of_le fits)]
  · have cut : (bytes.take (Record.size + 1)).length = Record.size + 1 := by
      rw [List.length_take]
      omega
    rw [if_neg fits, Record.read_of_length_ne (by rw [cut]; exact Nat.succ_ne_self _), cut]
    rfl

/-- What is accepted is a record that the whole stream stands for, even if not all of the stream is
there. -/
theorem inflate_of_decode (read : Base64.decode (Base64.pad (symbols text)) = .ok stream)
    {path : Path} (h : decode text = .ok path) (extra : List UInt8) :
    ∃ bytes, Zlib.inflate (stream ++ extra) = .ok bytes ∧ Record.read bytes = .ok path := by
  obtain ⟨stream', record, read', inflated, accepted⟩ := exists_of_decode (.ok path) h
  have same : stream' = stream := Except.ok.inj (read'.symm.trans read)
  rw [same] at inflated
  have few : record.length < Record.size + 1 := by
    rw [Record.length_of_read accepted]
    exact Nat.lt_succ_self _
  exact ⟨record, Zlib.inflate_of_inflateUpTo inflated few (by decide) extra, accepted⟩

/-- A stream that fails before a byte too many is out is refused for that reason. -/
theorem decode_of_error (read : Base64.decode (Base64.pad (symbols text)) = .ok stream)
    {cause : Zlib.Error} (failed : Zlib.inflate stream = .error cause)
    (few : (Zlib.decompress none stream).1.size ≤ Record.size) :
    decode text = .error (.compression cause) := by
  rw [decode_of_read read,
    Zlib.inflateUpTo_of_error failed (Nat.lt_succ_of_le few) (by decide)]
  rfl

end

/-- The size that is reported for a record is not that of a record, and at most one byte more. -/
theorem size_of_decode {text : List Char} {actual : Nat}
    (h : decode text = .error (.record (.unexpectedSize actual))) :
    actual ≠ Record.size ∧ actual ≤ Record.size + 1 := by
  obtain ⟨stream, record, -, inflated, refused⟩ :=
    exists_of_decode (.error (.unexpectedSize actual)) h
  obtain ⟨rfl, other⟩ := Record.eq_length_of_read refused
  exact ⟨other, Zlib.length_le_of_inflateUpTo inflated (by decide)⟩

/-- **The bound changes no outcome.**  However much of its last group is filled up, the text of a
stream that stands for bytes is read as these bytes are read as a record, and refused with one byte
too many if they are more than a record has.  The text of a stream that does not hold out to its end
is never accepted, and it is refused for that reason unless a byte too many comes out before.  So
the size that is reported is never that of a record, nor above one byte more. -/
theorem decode_filled (stream : List UInt8) :
    (∀ fill ≤ Base64.paddingNeeded (letters stream).length,
      (∀ bytes, Zlib.inflate stream = .ok bytes →
        decode (filled stream fill) =
          if bytes.length ≤ Record.size then (Record.read bytes).mapError .record
          else .error (.record (.unexpectedSize (Record.size + 1)))) ∧
      (∀ cause, Zlib.inflate stream = .error cause →
        (∀ path, decode (filled stream fill) ≠ .ok path) ∧
        ((Zlib.decompress none stream).1.size ≤ Record.size →
          decode (filled stream fill) = .error (.compression cause)))) ∧
    ∀ (text : List Char) (actual : Nat),
      decode text = .error (.record (.unexpectedSize actual)) →
        actual ≠ Record.size ∧ actual ≤ Record.size + 1 := by
  refine ⟨?_, fun text actual h => size_of_decode h⟩
  intro fill few
  have read := decode_pad_symbols_filled few
  refine ⟨fun bytes sound => decode_of_inflate read sound, ?_⟩
  intro cause failed
  refine ⟨?_, decode_of_error read failed⟩
  intro path accepted
  obtain ⟨bytes, sound, -⟩ := inflate_of_decode read accepted []
  rw [List.append_nil, failed] at sound
  cases sound

/-- Streams of 4096 bytes, of one byte and of none: the first one is a byte too long, filled up or
not, the second one is too short, and the third one is no stream. -/
theorem decode_filled_store :
    Zlib.inflate (Zlib.store (List.replicate 4096 0)) = .ok (List.replicate 4096 0) ∧
    decode (filled (Zlib.store (List.replicate 4096 0)) 0) =
      .error (.record (.unexpectedSize (Record.size + 1))) ∧
    Zlib.inflate (Zlib.store [7]) = .ok [7] ∧
    decode (filled (Zlib.store [7])
      (Base64.paddingNeeded (letters (Zlib.store [7])).length)) =
      .error (.record (.unexpectedSize 1)) ∧
    Zlib.inflate [] = .error .incomplete ∧
    decode (filled [] 0) = .error (.compression .incomplete) ∧
    Record.size + 1 ≠ Record.size := by
  have long := Zlib.inflate_store (List.replicate 4096 0)
  have short := Zlib.inflate_store [7]
  have none : Zlib.inflate [] = .error .incomplete := rfl
  have refused := ((decode_filled _).1 0 (Nat.zero_le _)).1 _ long
  rw [List.length_replicate, if_neg (by decide)] at refused
  refine ⟨long, refused, short, ?_, none, ?_, ?_⟩
  · exact ((decode_filled _).1 _ (Nat.le_refl _)).1 _ short
  · exact (((decode_filled _).1 0 (Nat.zero_le _)).2 _ none).2 (by decide)
  · exact ((decode_filled []).2 _ _ refused).1

/-! ## Payloads that are cut off -/

variable {compress : List UInt8 → List UInt8}

/-- What is left of a text that is cut off are the first ones of its symbols. -/
theorem symbols_of_cut {cut : List Char} {stream : List UInt8} (h : cut <+: letters stream) :
    symbols cut <+: Base64.encode stream := by
  obtain ⟨missing, whole⟩ := h
  have letter : ∀ c ∈ cut, Base64.isLetter c = true := by
    intro c hc
    have kept : c ∈ letters stream := by
      rw [← whole]
      exact List.mem_append_left missing hc
    exact isLetter_of_mem_letters kept
  rw [symbols_of_isLetter letter, ← flatMap_letters, ← whole, List.flatMap_append]
  exact List.prefix_append _ _

/-- A text that is cut off, and is accepted, is read as the path that was written. -/
theorem eq_of_decode_cut (sound : Zlib.Compresses compress) {path got : Path}
    {stream : List UInt8} (packed : pack compress path = .ok stream) {cut : List Char}
    (h : cut <+: letters stream) (accepted : decode cut = .ok got) : got = path := by
  obtain ⟨part, -, read, -, -⟩ := exists_of_decode (.ok got) accepted
  obtain ⟨missing, whole⟩ := Base64.prefix_of_decode_pad (symbols_of_cut h) read
  -- a record came out of the part, so the missing bytes may be put back without a change
  obtain ⟨bytes, inflated, readBytes⟩ := inflate_of_decode read accepted missing
  rw [whole] at inflated
  obtain ⟨record, written, rfl⟩ := exists_record_of_pack packed
  rw [sound record] at inflated
  rw [← Except.ok.inj inflated, Record.read_of_write written] at readBytes
  exact (Except.ok.inj readBytes).symm

/-- **Cut payloads.**  What is written for a path that fits is read as that path, and whatever is
left of it if it is cut off anywhere is refused or read as that path, never as another one. -/
theorem decode_of_cut (compress : List UInt8 → List UInt8) (sound : Zlib.Compresses compress)
    (path : Path) (fits : path.length ≤ Record.capacity) :
    ∃ text, encodeWith compress path = .ok text ∧ decode text = .ok path ∧
      ∀ cut, cut <+: text → (∃ cause, decode cut = .error cause) ∨ decode cut = .ok path := by
  obtain ⟨record, -, packed⟩ := pack_of_le compress fits
  have whole : decode (ofStream (compress record)) = .ok path :=
    decode_of_symbols sound packed (symbols_ofStream _)
  refine ⟨_, encodeWith_of_pack packed, whole, ?_⟩
  intro cut h
  -- either nothing is missing, or the terminator is, and perhaps letters before it
  rcases List.prefix_concat_iff.mp h with same | part
  · rw [same]
    exact .inr whole
  · cases read : decode cut with
    | error cause => exact .inl ⟨cause, rfl⟩
    | ok got => exact .inr (congrArg Except.ok (eq_of_decode_cut sound packed part read))

/-- What is left of the payload of two points, in stored blocks; nothing at all is refused. -/
theorem decode_of_cut_store :
    Zlib.Compresses Zlib.store ∧
    Path.length ⟨[⟨1, 2⟩, ⟨3, 4⟩]⟩ ≤ Record.capacity ∧
    (∃ text, encodeWith Zlib.store ⟨[⟨1, 2⟩, ⟨3, 4⟩]⟩ = .ok text ∧
      decode text = .ok ⟨[⟨1, 2⟩, ⟨3, 4⟩]⟩ ∧
      ∀ cut, cut <+: text →
        (∃ cause, decode cut = .error cause) ∨ decode cut = .ok ⟨[⟨1, 2⟩, ⟨3, 4⟩]⟩) ∧
    decode [] = .error (.compression .incomplete) := by
  have read : Base64.decode (Base64.pad (symbols [])) = .ok [] := rfl
  have failed : Zlib.inflate [] = .error .incomplete := rfl
  refine ⟨Zlib.compresses_store, by decide, ?_, decode_of_error read failed (by decide)⟩
  exact decode_of_cut Zlib.store Zlib.compresses_store ⟨[⟨1, 2⟩, ⟨3, 4⟩]⟩ (by decide)

end PenDrawing.Payload
