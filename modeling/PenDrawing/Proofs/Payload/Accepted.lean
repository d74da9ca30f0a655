import PenDrawing.Proofs.Base64.Grammar
import PenDrawing.Proofs.Payload

/-!
# Which payloads are base64

Whether a payload is base64 is decided by its symbols alone:

* a text fails for its base64 exactly if its symbols, filled up, cannot be read
  (`decode_of_base64_error`, `decode_ne_base64_error`), so exactly if they are not in the grammar;
* a text whose symbols are in the grammar goes on with the bytes that they stand for, however much
  of the last group is filled up, and no other symbols stand for these bytes
  (`decode_of_grammar`).
-/

namespace PenDrawing.Payload

variable {text : List Char}

/-- Where symbols can be read, whatever fails then is not the base64. -/
theorem decode_ne_base64_error {stream : List UInt8}
    (read : Base64.decode (Base64.pad (symbols text)) = .ok stream) (cause : Base64.Error) :
    decode text ≠ .error (.base64 cause) := by
  intro h
  rw [decode_of_read read] at h
  cases inflated : Zlib.inflateUpTo (Record.size + 1) stream with
  | error reason =>
      rw [inflated] at h
      cases h
  | ok record =>
      rw [inflated] at h
      have last : (Record.read record).mapError DecodeError.record =
        .error (DecodeError.base64 cause) := h
      cases parsed : Record.read record with
      | error reason =>
          rw [parsed] at last
          cases last
      | ok path =>
          rw [parsed] at last
          cases last

/-- **The grammar of payloads.**  A text fails for its base64 exactly if its symbols are not in the
grammar.  If they are, there is one list of bytes that they stand for, and the text is read as these
bytes are: decompressed, and then as a record.  Another text whose symbols are in the grammar is
read alike if it has the same symbols apart from what fills them up, and has these if it stands for
the same bytes. -/
theorem decode_of_grammar (text : List Char) :
    ((∃ cause, decode text = .error (.base64 cause)) ↔
      ¬ ∃ body, Base64.Grammar (symbols text) body) ∧
    ∀ body, Base64.Grammar (symbols text) body →
      ∃ stream, (∀ bytes, Base64.Denotes body bytes ↔ bytes = stream) ∧
        decode text = ((Zlib.inflateUpTo (Record.size + 1) stream).mapError .compression).bind
          (fun record => (Record.read record).mapError .record) ∧
        ∀ text' body', Base64.Grammar (symbols text') body' →
          (body' = body → decode text' = decode text) ∧
          (Base64.Denotes body' stream → body' = body) := by
  refine ⟨?_, ?_⟩
  · constructor
    · rintro ⟨cause, failed⟩ ⟨body, grammar⟩
      obtain ⟨stream, rfl⟩ := Base64.exists_encode_of_canonical grammar.canonical
      exact decode_ne_base64_error (Base64.decode_pad_of_grammar grammar) cause failed
    · intro outside
      cases read : Base64.decode (Base64.pad (symbols text)) with
      | error cause => exact ⟨cause, decode_of_base64_error read⟩
      | ok stream => exact absurd ⟨_, Base64.grammar_of_decode_pad read⟩ outside
  · intro body grammar
    obtain ⟨stream, rfl⟩ := Base64.exists_encode_of_canonical grammar.canonical
    have own := decode_of_read (Base64.decode_pad_of_grammar grammar)
    refine ⟨stream, Base64.denotes_encode_iff stream, own, ?_⟩
    intro text' body' grammar'
    constructor
    · rintro rfl
      rw [own, decode_of_read (Base64.decode_pad_of_grammar grammar')]
    · intro stands
      obtain ⟨stream', rfl⟩ := Base64.exists_encode_of_canonical grammar'.canonical
      rw [(Base64.denotes_encode_iff stream' stream).mp stands]

/-- The two symbols of one byte, with one of the two signs that they lack, wrapped and terminated,
are read as without a sign. -/
theorem decode_of_grammar_byte :
    Base64.Grammar (symbols "\nQQ=;".toList) [81, 81] ∧
    Base64.Grammar (symbols "Q Q".toList) [81, 81] ∧
    Base64.Denotes [81, 81] [65] ∧
    decode "\nQQ=;".toList =
      ((Zlib.inflateUpTo (Record.size + 1) [65]).mapError .compression).bind
        (fun record => (Record.read record).mapError .record) ∧
    decode "Q Q".toList = decode "\nQQ=;".toList := by
  have body : Base64.Canonical [81, 81] := Base64.canonical_encode [65]
  have partly : Base64.Grammar (symbols "\nQQ=;".toList) [81, 81] := ⟨body, 1, by decide, by decide⟩
  have bare : Base64.Grammar (symbols "Q Q".toList) [81, 81] := ⟨body, 0, by decide, by decide⟩
  have stands : Base64.Denotes [81, 81] [65] := Base64.denotes_encode [65]
  obtain ⟨stream, unique, read, others⟩ := (decode_of_grammar "\nQQ=;".toList).2 _ partly
  have same : [65] = stream := (unique [65]).mp stands
  rw [← same] at read
  exact ⟨partly, bare, stands, read, (others _ _ bare).1 rfl⟩

end PenDrawing.Payload
