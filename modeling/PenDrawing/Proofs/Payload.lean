import PenDrawing.Payload
import PenDrawing.Proofs.Base64
import PenDrawing.Proofs.Outcome
import PenDrawing.Proofs.Record
import PenDrawing.Proofs.Text.Blank
import PenDrawing.Proofs.Zlib.Stored

/-!
# Payloads hold paths

What is written for a path is read as that path, in whatever way records are compressed, as long as
streams stand for what was compressed.  The route:

* the symbols of a payload do not depend on how it is wrapped (`symbols_filter`), on blanks in front
  of it or behind it (`symbols_append`, `symbols_append_blanks`), or on whether it is terminated
  (`symbols_letters`, `symbols_ofStream`);
* what a text is read as is decided by the stream its symbols stand for (`decode_of_read`), and a
  text with the symbols of a packed path is read as that path (`decode_of_symbols`);
* so what is written is read back, and so is whatever was read once, since no path that is read is
  too long to be written (`decode_encodeWith`).
-/

namespace PenDrawing.Payload

/-! ## The symbols of a text -/

theorem dropTerminator_concat (cs : List Char) (c : Char) :
    dropTerminator (cs ++ [c]) = if c = terminator then cs else cs ++ [c] := by
  rw [dropTerminator, List.getLast?_concat, List.dropLast_concat]
  by_cases h : c = terminator
  · rw [if_pos h, if_pos (congrArg some h)]
  · rw [if_neg h, if_neg fun same => h (Option.some.inj same)]

theorem dropTerminator_eq_self {cs : List Char} (h : cs.getLast? ≠ some terminator) :
    dropTerminator cs = cs := by
  rw [dropTerminator, if_neg h]

/-- Where a text does not end in wrapping, its terminator may be dropped before or after all
wrapping is taken out. -/
theorem dropTerminator_filter {cs : List Char} (h : ∀ c ∈ cs.getLast?, Text.isWrap c = false) :
    dropTerminator (cs.filter (!Text.isWrap ·)) = (dropTerminator cs).filter (!Text.isWrap ·) := by
  rcases List.eq_nil_or_concat cs with rfl | ⟨before, c, rfl⟩
  · rfl
  · rw [List.concat_eq_append] at h ⊢
    have kept : [c].filter (!Text.isWrap ·) = [c] :=
      List.filter_cons_of_pos (by rw [h c List.getLast?_concat]; rfl)
    rw [List.filter_append, kept, dropTerminator_concat, dropTerminator_concat]
    by_cases last : c = terminator
    · rw [if_pos last, if_pos last]
    · rw [if_neg last, if_neg last, List.filter_append, kept]

/-- How a text is wrapped does not matter to its symbols. -/
theorem symbols_filter (text : List Char) :
    symbols (text.filter (!Text.isWrap ·)) = symbols text := by
  have last : ∀ c ∈ (Text.trimBlank text).getLast?, Text.isWrap c = false :=
    fun c hc => Text.isWrap_of_not_isBlank (Text.isBlank_getLast?_trimBlank text c hc)
  rw [symbols, Text.trimBlank_filter, dropTerminator_filter last, List.filter_filter]
  simp only [Bool.and_self]
  rfl

/-- Blanks in front of a text do not matter to its symbols. -/
theorem symbols_append {blanks : List Char} (h : ∀ c ∈ blanks, Text.isBlank c = true)
    (text : List Char) : symbols (blanks ++ text) = symbols text := by
  rw [symbols, Text.trimBlank_append h]
  rfl

/-- Blanks behind a text do not matter to its symbols. -/
theorem symbols_append_blanks (text : List Char) {blanks : List Char}
    (h : ∀ c ∈ blanks, Text.isBlank c = true) : symbols (text ++ blanks) = symbols text := by
  rw [symbols, Text.trimBlank_append_blanks text h]
  rfl

/-- A blank text has no symbols. -/
theorem symbols_of_blank {text : List Char} (h : ∀ c ∈ text, Text.isBlank c = true) :
    symbols text = [] := by
  rw [← List.append_nil text, symbols_append h]
  rfl

/-- A text without blanks that does not end in a terminator is all symbols. -/
theorem symbols_of_solid {text : List Char} (solid : ∀ c ∈ text, Text.isBlank c = false)
    (unterminated : text.getLast? ≠ some terminator) :
    symbols text = text.flatMap String.utf8EncodeChar := by
  rw [symbols, Text.trimBlank_eq_self solid, dropTerminator_eq_self unterminated,
    Text.filter_eq_self_of_not_isBlank solid]

/-- A terminator behind a text without blanks is dropped. -/
theorem symbols_concat_of_solid {text : List Char} (solid : ∀ c ∈ text, Text.isBlank c = false) :
    symbols (text ++ [terminator]) = text.flatMap String.utf8EncodeChar := by
  have terminated : ∀ c ∈ text ++ [terminator], Text.isBlank c = false := by
    intro c hc
    rcases List.mem_append.mp hc with inside | last
    · exact solid c inside
    · rw [List.mem_singleton.mp last]
      rfl
  rw [symbols, Text.trimBlank_eq_self terminated, dropTerminator_concat, if_pos rfl,
    Text.filter_eq_self_of_not_isBlank solid]

/-! ## The symbols of what was written -/

/-- What is written for compressed bytes consists of the characters of base64. -/
theorem isLetter_of_mem_letters {stream : List UInt8} {c : Char} (h : c ∈ letters stream) :
    Base64.isLetter c = true := by
  obtain ⟨b, hb, rfl⟩ := List.mem_map.mp h
  obtain ⟨v, hv, rfl⟩ := Base64.exists_symbol_of_mem_encode hb
  exact Base64.isLetter_symbol v hv

/-- No letter of a payload is a blank. -/
theorem isBlank_of_isLetter {c : Char} (h : Base64.isLetter c = true) :
    Text.isBlank c = false := by
  obtain ⟨low, high, -, -⟩ := Base64.toNat_of_isLetter h
  simp only [Text.isBlank, Bool.or_eq_false_iff, Bool.and_eq_false_iff, decide_eq_false_iff_not,
    beq_eq_false_iff_ne]
  omega

theorem ne_terminator_of_isLetter {c : Char} (h : Base64.isLetter c = true) : c ≠ terminator := by
  rintro rfl
  exact absurd h (by decide)

theorem terminator_not_mem_letters (stream : List UInt8) : terminator ∉ letters stream :=
  fun h => ne_terminator_of_isLetter (isLetter_of_mem_letters h) rfl

/-- The letters of a stream are its encoding, one byte each. -/
theorem flatMap_letters (stream : List UInt8) :
    (letters stream).flatMap String.utf8EncodeChar = Base64.encode stream := by
  -- each symbol is an ASCII character, and so one byte again
  have each : ∀ b ∈ Base64.encode stream, String.utf8EncodeChar (Char.ofNat b.toNat) = [b] := by
    intro b hb
    obtain ⟨v, hv, rfl⟩ := Base64.exists_symbol_of_mem_encode hb
    exact Base64.utf8EncodeChar_symbol v hv
  rw [letters, List.flatMap_map]
  revert each
  generalize Base64.encode stream = text
  intro each
  induction text with
  | nil => rfl
  | cons b rest ih =>
      rw [List.flatMap_cons, each b List.mem_cons_self,
        ih fun c hc => each c (List.mem_cons_of_mem b hc)]
      rfl

theorem symbols_of_isLetter {text : List Char} (h : ∀ c ∈ text, Base64.isLetter c = true) :
    symbols text = text.flatMap String.utf8EncodeChar :=
  symbols_of_solid (fun c hc => isBlank_of_isLetter (h c hc))
    fun last => ne_terminator_of_isLetter (h _ (List.mem_of_getLast? last)) rfl

/-- Without its terminator a payload still has its symbols. -/
theorem symbols_letters (stream : List UInt8) :
    symbols (letters stream) = Base64.encode stream := by
  rw [symbols_of_isLetter fun c hc => isLetter_of_mem_letters hc, flatMap_letters]

/-- What is written for a stream is cleaned to its encoding. -/
theorem symbols_ofStream (stream : List UInt8) :
    symbols (ofStream stream) = Base64.encode stream := by
  have solid : ∀ c ∈ letters stream, Text.isBlank c = false :=
    fun c hc => isBlank_of_isLetter (isLetter_of_mem_letters hc)
  rw [ofStream, symbols_concat_of_solid solid, flatMap_letters]

/-! ## Reading what was written -/

variable {compress : List UInt8 → List UInt8}

/-- A path that fits is packed: its record is compressed. -/
theorem pack_of_le (compress : List UInt8 → List UInt8) {path : Path}
    (fits : path.length ≤ Record.capacity) :
    ∃ record, Record.write path = .ok record ∧ pack compress path = .ok (compress record) := by
  refine ⟨_, Record.write_of_le fits, ?_⟩
  rw [pack, Record.write_of_le fits]

/-- A path with too many points is not packed. -/
theorem pack_of_lt {path : Path} (h : Record.capacity < path.length) :
    pack compress path = .error ⟨path.length⟩ := by
  rw [pack, Record.write_of_lt h]

/-- What is packed is the compressed record of a path. -/
theorem exists_record_of_pack {path : Path} {stream : List UInt8}
    (packed : pack compress path = .ok stream) :
    ∃ record, Record.write path = .ok record ∧ compress record = stream := by
  rw [pack] at packed
  cases written : Record.write path with
  | error cause =>
      rw [written] at packed
      cases packed
  | ok record =>
      rw [written] at packed
      exact ⟨record, rfl, Except.ok.inj packed⟩

/-- A text whose symbols stand for no stream is refused for that. -/
theorem decode_of_base64_error {text : List Char} {cause : Base64.Error}
    (failed : Base64.decode (Base64.pad (symbols text)) = .error cause) :
    decode text = .error (.base64 cause) := by
  rw [decode, unpack, failed]
  rfl

/-- What a text stands for whose symbols are those of a stream: the record in it. -/
theorem decode_of_read {text : List Char} {stream : List UInt8}
    (read : Base64.decode (Base64.pad (symbols text)) = .ok stream) :
    decode text = ((Zlib.inflateUpTo (Record.size + 1) stream).mapError .compression).bind
      fun record => (Record.read record).mapError .record := by
  rw [decode, unpack, mapError_bind_of_eq_ok read]
  cases Zlib.inflateUpTo (Record.size + 1) stream with
  | error cause => rfl
  | ok record =>
      show Unpacked.path ⟨_, record⟩ = (Record.read record).mapError .record
      rw [Unpacked.path]
      cases Record.read record with
      | error cause => rfl
      | ok path => rfl

/-- What a text is read as depends on nothing but its symbols. -/
theorem decode_congr {text text' : List Char} (h : symbols text = symbols text') :
    decode text = decode text' := by
  rw [decode, decode, unpack, unpack, h]

/-- Blanks in front of a text do not matter to what it is read as. -/
theorem decode_trimLeft (text : List Char) : decode (Text.trimLeft text) = decode text := by
  refine decode_congr ?_
  have blank : ∀ c ∈ text.takeWhile Text.isBlank, Text.isBlank c = true :=
    fun c hc => List.mem_takeWhile_imp hc
  rw [← symbols_append blank (Text.trimLeft text)]
  exact congrArg symbols List.takeWhile_append_dropWhile

theorem eq_of_mapError_eq {a b : Except RecordError Path}
    (h : a.mapError DecodeError.record = b.mapError .record) : a = b := by
  cases a with
  | error cause =>
      cases b with
      | error cause' =>
          cases h
          rfl
      | ok path => cases h
  | ok path =>
      cases b with
      | error cause => cases h
      | ok path' =>
          cases h
          rfl

/-- What reading a record gives, a path or an error, comes of a record that was unpacked. -/
theorem exists_of_decode {text : List Char} (result : Except RecordError Path)
    (h : decode text = result.mapError .record) :
    ∃ stream record, Base64.decode (Base64.pad (symbols text)) = .ok stream ∧
      Zlib.inflateUpTo (Record.size + 1) stream = .ok record ∧ Record.read record = result := by
  cases read : Base64.decode (Base64.pad (symbols text)) with
  | error cause =>
      rw [decode_of_base64_error read] at h
      cases result <;> cases h
  | ok stream =>
      rw [decode_of_read read] at h
      cases inflated : Zlib.inflateUpTo (Record.size + 1) stream with
      | error cause =>
          rw [inflated] at h
          cases result <;> cases h
      | ok record =>
          rw [inflated] at h
          exact ⟨stream, record, rfl, inflated, eq_of_mapError_eq h⟩

/-- A text with the symbols of a packed path is read as that path. -/
theorem decode_of_symbols (sound : Zlib.Compresses compress) {path : Path} {stream : List UInt8}
    (packed : pack compress path = .ok stream) {text : List Char}
    (h : symbols text = Base64.encode stream) : decode text = .ok path := by
  obtain ⟨record, written, rfl⟩ := exists_record_of_pack packed
  -- the bound is one byte more than the record, so nothing of it is cut off
  have inflated : Zlib.inflateUpTo (Record.size + 1) (compress record) = .ok record := by
    rw [Zlib.inflateUpTo_of_inflate (sound record) (by decide),
      List.take_of_length_le (by rw [Record.length_of_write written]; exact Nat.le_succ _)]
  have read : Base64.decode (Base64.pad (symbols text)) = .ok (compress record) := by
    rw [h, Base64.decode_pad_encode]
  rw [decode_of_read read, inflated]
  show (Record.read record).mapError _ = _
  rw [Record.read_of_write written]
  rfl

/-- What was packed has symbols. -/
theorem encode_ne_nil_of_pack (sound : Zlib.Compresses compress) {path : Path}
    {stream : List UInt8} (packed : pack compress path = .ok stream) :
    Base64.encode stream ≠ [] := by
  obtain ⟨record, -, rfl⟩ := exists_record_of_pack packed
  intro empty
  exact sound.ne_nil record ((Base64.encode_eq_nil_iff _).mp empty)

/-- No path with more points than a record holds is ever read. -/
theorem length_le_of_decode {text : List Char} {path : Path} (h : decode text = .ok path) :
    path.length ≤ Record.capacity := by
  obtain ⟨stream, record, -, -, read⟩ := exists_of_decode (.ok path) h
  exact Record.length_le_of_read read

/-- What is written for a path that fits: the base64 text of its packed record, terminated. -/
theorem encodeWith_of_pack {path : Path} {stream : List UInt8}
    (packed : pack compress path = .ok stream) :
    encodeWith compress path = .ok (ofStream stream) := by
  rw [encodeWith, packed]

/-- What is written for a path that fits is read as that path. -/
theorem decode_of_encodeWith (sound : Zlib.Compresses compress) {path : Path}
    (fits : path.length ≤ Record.capacity) :
    ∃ stream, encodeWith compress path = .ok (ofStream stream) ∧
      decode (ofStream stream) = .ok path := by
  obtain ⟨record, -, packed⟩ := pack_of_le compress fits
  exact ⟨compress record, encodeWith_of_pack packed,
    decode_of_symbols sound packed (symbols_ofStream _)⟩

/-- **Payload round trip.**  Exactly the paths that fit into a record are written.  What is written
consists of letters of base64 and one terminator at its end, and is read as the path.  Whatever path
is read from any text fits, so it can be written and read again. -/
theorem decode_encodeWith (compress : List UInt8 → List UInt8) (sound : Zlib.Compresses compress) :
    (∀ path : Path, path.length ≤ Record.capacity →
      ∃ body : List Char, encodeWith compress path = .ok (body ++ [terminator]) ∧
        (∀ c ∈ body, Base64.isLetter c = true) ∧ decode (body ++ [terminator]) = .ok path) ∧
    (∀ path : Path, Record.capacity < path.length →
      encodeWith compress path = .error ⟨path.length⟩) ∧
    (∀ (text : List Char) (path : Path), decode text = .ok path →
      path.length ≤ Record.capacity ∧
        ∃ again, encodeWith compress path = .ok again ∧ decode again = .ok path) := by
  refine ⟨?_, ?_, ?_⟩
  · intro path fits
    obtain ⟨stream, written, read⟩ := decode_of_encodeWith sound fits
    exact ⟨letters stream, written, fun c hc => isLetter_of_mem_letters hc, read⟩
  · intro path long
    rw [encodeWith, pack_of_lt long]
  · intro text path first
    have fits := length_le_of_decode first
    obtain ⟨stream, written, read⟩ := decode_of_encodeWith sound fits
    exact ⟨fits, ofStream stream, written, read⟩

/-- The round trip of a path of a pen-up point and a drawn one, in stored blocks; and a path with one
point too many. -/
theorem decode_encodeWith_store :
    Zlib.Compresses Zlib.store ∧
    (∃ body : List Char,
      encodeWith Zlib.store ⟨[Point.penUp, ⟨100, 200⟩]⟩ = .ok (body ++ [terminator]) ∧
        (∀ c ∈ body, Base64.isLetter c = true) ∧
        decode (body ++ [terminator]) = .ok ⟨[Point.penUp, ⟨100, 200⟩]⟩) ∧
    encodeWith Zlib.store ⟨List.replicate (Record.capacity + 1) Point.penUp⟩ =
      .error ⟨Record.capacity + 1⟩ := by
  have trip := decode_encodeWith Zlib.store Zlib.compresses_store
  refine ⟨Zlib.compresses_store, trip.1 _ (by decide), ?_⟩
  have long : Path.length ⟨List.replicate (Record.capacity + 1) Point.penUp⟩ = Record.capacity + 1 :=
    List.length_replicate
  have exceeds : Record.capacity <
      Path.length ⟨List.replicate (Record.capacity + 1) Point.penUp⟩ := by
    rw [long]
    exact Nat.lt_succ_self _
  rw [trip.2.1 _ exceeds, long]

end PenDrawing.Payload
