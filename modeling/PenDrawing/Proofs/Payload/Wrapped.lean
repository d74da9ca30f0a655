import PenDrawing.Proofs.Base64.Grammar
import PenDrawing.Proofs.Payload

/-!
# Payloads however they are wrapped

Three things happen to a payload before its symbols are looked at: blanks go at both ends, then one
terminator, then all wrapping.  Blanks are more than wrapping, and the terminator stands between the
two, yet the order does not show:

* texts with the same characters apart from wrapping have the same symbols, so they are read alike
  (`decode_congr` of `symbols_filter`);
* where all blanks are wrapping, a terminator behind a text that ends in none is dropped, and with
  it what is blank behind it (`symbols_append_terminator`);
* no more than one terminator is dropped, and base64 has no use for another
  (`exists_of_two_le_count`).
-/

namespace PenDrawing.Payload

/-! ## One terminator -/

/-- Where all blanks are wrapping, a terminator and blanks behind it do not matter to the symbols of
a text that does not end in a terminator. -/
theorem symbols_append_terminator {text blanks : List Char}
    (wrapped : ∀ c ∈ text, Text.isBlank c = true → Text.isWrap c = true)
    (unterminated : (text.filter (!Text.isWrap ·)).getLast? ≠ some terminator)
    (blank : ∀ c ∈ blanks, Text.isBlank c = true) :
    symbols (text ++ terminator :: blanks) = symbols text := by
  have solid : ∀ c ∈ text.filter (!Text.isWrap ·), Text.isBlank c = false := by
    intro c hc
    obtain ⟨inside, plain⟩ := List.mem_filter.mp hc
    refine eq_false_of_ne_true fun blank => ?_
    rw [wrapped c inside blank] at plain
    cases plain
  have behind : symbols (text ++ terminator :: blanks) = symbols (text ++ [terminator]) := by
    rw [← List.singleton_append, ← List.append_assoc, symbols_append_blanks _ blank]
  have unwrapped : (text ++ [terminator]).filter (!Text.isWrap ·) =
      text.filter (!Text.isWrap ·) ++ [terminator] := by
    rw [List.filter_append]
    rfl
  rw [behind, ← symbols_filter, unwrapped, symbols_concat_of_solid solid,
    ← symbols_of_solid solid unterminated, symbols_filter]

/-! ## More than one terminator -/

/-- No more than one terminator is dropped. -/
theorem count_le_dropTerminator (cs : List Char) :
    cs.count terminator ≤ (dropTerminator cs).count terminator + 1 := by
  rcases List.eq_nil_or_concat cs with rfl | ⟨before, c, rfl⟩
  · exact Nat.zero_le _
  · rw [List.concat_eq_append, dropTerminator_concat]
    by_cases last : c = terminator
    · rw [if_pos last, List.count_append]
      exact Nat.add_le_add_left List.count_le_length _
    · rw [if_neg last]
      exact Nat.le_succ _

/-- The symbol of a terminator. -/
def terminatorByte : UInt8 := 59

theorem utf8EncodeChar_terminator : String.utf8EncodeChar terminator = [terminatorByte] := by
  decide

/-- One of two terminators is left among the symbols. -/
theorem terminatorByte_mem_symbols {text : List Char} (two : 2 ≤ text.count terminator) :
    terminatorByte ∈ symbols text := by
  have kept := count_le_dropTerminator (Text.trimBlank text)
  rw [Text.count_trimBlank (by decide)] at kept
  have left : terminator ∈ dropTerminator (Text.trimBlank text) :=
    List.count_pos_iff.mp (by omega)
  refine List.mem_flatMap.mpr ⟨terminator, List.mem_filter.mpr ⟨left, by decide⟩, ?_⟩
  rw [utf8EncodeChar_terminator]
  exact List.mem_singleton_self _

/-- A terminator is no symbol of base64, and nothing that fills up a group. -/
theorem terminatorByte_not_mem_of_grammar {text body : List UInt8}
    (grammar : Base64.Grammar text body) : terminatorByte ∉ text := by
  obtain ⟨canonical, fill, -, rfl⟩ := grammar
  intro there
  rcases List.mem_append.mp there with symbol | sign
  · exact absurd (canonical.mem_alphabet _ symbol) (by decide)
  · exact absurd (List.eq_of_mem_replicate sign) (by decide)

/-- A text with two terminators is no base64. -/
theorem exists_of_two_le_count {text : List Char} (two : 2 ≤ text.count terminator) :
    ∃ cause, decode text = .error (.base64 cause) := by
  cases read : Base64.decode (Base64.pad (symbols text)) with
  | error cause => exact ⟨cause, decode_of_base64_error read⟩
  | ok stream =>
      exact absurd (terminatorByte_mem_symbols two)
        (terminatorByte_not_mem_of_grammar (Base64.grammar_of_decode_pad read))

/-- **Wrapping does not matter.**  Texts that are the same once all wrapping is taken out are read
alike, as a path or with the same error.  Where all blanks are wrapping and the last other character
is no terminator, a terminator and blanks of any kind may follow.  A text with two terminators, at
its end or elsewhere, is never base64. -/
theorem decode_wrapped :
    (∀ text other : List Char,
      text.filter (!Text.isWrap ·) = other.filter (!Text.isWrap ·) → decode text = decode other) ∧
    (∀ text blanks : List Char,
      (∀ c ∈ text, Text.isBlank c = true → Text.isWrap c = true) →
      (text.filter (!Text.isWrap ·)).getLast? ≠ some terminator →
      (∀ c ∈ blanks, Text.isBlank c = true) →
      decode (text ++ terminator :: blanks) = decode text) ∧
    ∀ text : List Char, 2 ≤ text.count terminator →
      ∃ cause, decode text = .error (.base64 cause) := by
  refine ⟨?_, ?_, ?_⟩
  · intro text other same
    refine decode_congr ?_
    rw [← symbols_filter text, same, symbols_filter]
  · intro text blanks wrapped unterminated blank
    exact decode_congr (symbols_append_terminator wrapped unterminated blank)
  · intro text two
    exact exists_of_two_le_count two

/-- Symbols that are wrapped in another way, a terminator with a line break and a blank that is no
wrapping behind it, and a second terminator on a line of its own. -/
theorem decode_wrapped_two_lines :
    "eJ\nxj\t".toList.filter (!Text.isWrap ·) = " e Jxj".toList.filter (!Text.isWrap ·) ∧
    decode "eJ\nxj\t".toList = decode " e Jxj".toList ∧
    (∀ c ∈ "eJ\nxj\t".toList, Text.isBlank c = true → Text.isWrap c = true) ∧
    ("eJ\nxj\t".toList.filter (!Text.isWrap ·)).getLast? ≠ some terminator ∧
    (∀ c ∈ "\n\u00a0".toList, Text.isBlank c = true) ∧
    decode ("eJ\nxj\t".toList ++ terminator :: "\n\u00a0".toList) = decode "eJ\nxj\t".toList ∧
    2 ≤ "eJ\nxj;\n;".toList.count terminator ∧
    ∃ cause, decode "eJ\nxj;\n;".toList = .error (.base64 cause) := by
  have same : "eJ\nxj\t".toList.filter (!Text.isWrap ·) =
      " e Jxj".toList.filter (!Text.isWrap ·) := by decide
  have each : "eJ\nxj\t".toList.all (fun c => !Text.isBlank c || Text.isWrap c) = true := by decide
  have wrapped : ∀ c ∈ "eJ\nxj\t".toList, Text.isBlank c = true → Text.isWrap c = true := by
    intro c hc blank
    have plain := List.all_eq_true.mp each c hc
    rw [blank] at plain
    exact plain
  have unterminated : ("eJ\nxj\t".toList.filter (!Text.isWrap ·)).getLast? ≠ some terminator := by
    decide
  have blank : ∀ c ∈ "\n\u00a0".toList, Text.isBlank c = true := List.all_eq_true.mp (by decide)
  have two : 2 ≤ "eJ\nxj;\n;".toList.count terminator := by decide
  exact ⟨same, decode_wrapped.1 _ _ same, wrapped, unterminated, blank,
    decode_wrapped.2.1 _ _ wrapped unterminated blank, two, decode_wrapped.2.2 _ two⟩

end PenDrawing.Payload
