import PenDrawing.Proofs.Listing.Pieces

/-!
# The numbers of comments and labels

Each entry of an exported listing is attached to the number of a header, the first one of its piece
(`matched`, `entries_eq_map_matched`).  A header may be spelled with the digits of any script, but
only a run of ASCII digits is read as the number that it stands for; every other run counts as zero
(`Header.number_eq`).

So the number of an entry is the one in the listing just if its digits are ASCII digits, or stand for
zero anyway, and then equal numbers are equal entries (`entries_numbered`).  With other digits
different numbers become one (`numbers_lost`).
-/

namespace PenDrawing.Listing

open Payload (terminator)

/-! ## Numbers of headers -/

namespace Header

/-- All digits of a header are ASCII digits. -/
def IsAscii (header : Header) : Prop := header.digits.all Text.isAsciiDigit = true

instance (header : Header) : Decidable header.IsAscii :=
  inferInstanceAs (Decidable (header.digits.all Text.isAsciiDigit = true))

/-- The number that the digits of a header stand for. -/
def decimal (header : Header) : Nat := Text.decimal header.digits

/-- A number is read from ASCII digits only, and counts as zero otherwise. -/
theorem number_eq (header : Header) :
    header.number = if header.IsAscii then header.decimal else 0 := by
  rw [number, Text.value?_eq, decimal]
  by_cases ascii : header.IsAscii
  · rw [if_pos ascii, if_pos (show header.digits.all Text.isAsciiDigit = true from ascii)]
    rfl
  · rw [if_neg ascii, if_neg (show ¬ header.digits.all Text.isAsciiDigit = true from ascii)]
    rfl

/-- A number is read right exactly from ASCII digits, or if it is zero. -/
theorem number_eq_decimal_iff (header : Header) :
    header.number = header.decimal ↔ header.IsAscii ∨ header.decimal = 0 := by
  rw [number_eq]
  by_cases ascii : header.IsAscii
  · rw [if_pos ascii]
    exact ⟨fun _ => .inl ascii, fun _ => rfl⟩
  · rw [if_neg ascii, or_iff_right ascii]
    exact eq_comm

/-- A header has at most nine digits, so its number has. -/
theorem decimal_le {header : Header} (digits : Digits header.digits) :
    header.decimal ≤ 999999999 := by
  have value := Text.decimal_lt header.digits
  have places : 10 ^ header.digits.length ≤ 10 ^ digitLimit :=
    Nat.pow_le_pow_right (by decide) digits.few
  have limit : 10 ^ digitLimit = 1000000000 := rfl
  rw [decimal]
  omega

/-- Headers are for the same exactly if keyword and number are the same. -/
theorem kind_eq_iff (first second : Header) :
    first.kind = second.kind ↔ first.keyword = second.keyword ∧ first.number = second.number := by
  obtain ⟨keyword, digits⟩ := first
  obtain ⟨keyword', digits'⟩ := second
  rw [kind, kind]
  cases keyword with
  | comment =>
      cases keyword' with
      | comment => exact ⟨fun h => ⟨rfl, Kind.comment.inj h⟩, fun h => congrArg Kind.comment h.2⟩
      | label => exact ⟨nofun, nofun⟩
  | label =>
      cases keyword' with
      | comment => exact ⟨nofun, nofun⟩
      | label => exact ⟨fun h => ⟨rfl, Kind.label.inj h⟩, fun h => congrArg Kind.label h.2⟩

end Header

/-! ## The header of an entry -/

/-- The first header of a text, and what follows its last blank. -/
def firstHeader? : List Char → Option (Header × List Char)
  | [] => none
  | c :: cs =>
    match header? (c :: cs) with
    | some found => some found
    | none => firstHeader? cs

/-- The first headers of the pieces of a listing, each with the payload behind it. -/
def matched (source : List Char) : List (Header × List Char) :=
  (source.splitOn terminator).filterMap firstHeader?

/-- The entry of a header and a payload. -/
def entryOf : Header × List Char → Entry
  | (header, payload) => ⟨header.kind, payload⟩

/-- The first header of a text is spelled there. -/
theorem exists_of_firstHeader? {text payload : List Char} {header : Header}
    (h : firstHeader? text = some (header, payload)) :
    ∃ skipped spelled, text = skipped ++ (spelled ++ payload) ∧ header.Spells spelled := by
  induction text with
  | nil => cases h
  | cons c cs ih =>
      rw [firstHeader?] at h
      cases here : header? (c :: cs) with
      | some found =>
          rw [here] at h
          rw [Option.some.inj h] at here
          obtain ⟨spelled, spells, cut, -⟩ := header?_eq_some_iff.mp here
          exact ⟨[], spelled, cut, spells⟩
      | none =>
          rw [here] at h
          obtain ⟨skipped, spelled, rfl, spells⟩ := ih h
          exact ⟨c :: skipped, spelled, rfl, spells⟩

/-- The leftmost block begins with the first header. -/
theorem findBlock?_eq_map (text : List Char) :
    findBlock? text = (firstHeader? text).map fun (header, body) =>
      (⟨header.kind, piece body⟩, afterPiece body) := by
  induction text with
  | nil => rfl
  | cons c cs ih =>
      rw [findBlock?, firstHeader?, block?]
      cases header? (c :: cs) with
      | some found => rfl
      | none => exact ih

/-- A piece with a header is the entry of its first header. -/
theorem entryOf?_eq_map {text : List Char} (clean : terminator ∉ text) :
    entryOf? text = (firstHeader? text).map entryOf := by
  rw [entryOf?, findBlock?_eq_map, Option.map_map]
  cases found : firstHeader? text with
  | none => rfl
  | some first =>
      obtain ⟨header, payload⟩ := first
      obtain ⟨skipped, spelled, rfl, -⟩ := exists_of_firstHeader? found
      have free : terminator ∉ payload := fun h =>
        clean (List.mem_append_right skipped (List.mem_append_right spelled h))
      -- nothing ends the payload in its piece
      have whole : piece payload = payload := by
        conv => lhs; rw [← List.append_nil payload]
        exact piece_append free .atEnd
      show some (Entry.mk header.kind (piece payload)) = _
      rw [whole]
      rfl

/-! ## Pieces of a listing -/

theorem clean_of_mem_splitOn {source piece : List Char} (h : piece ∈ source.splitOn terminator) :
    terminator ∉ piece := by
  intro mem
  rw [List.splitOn_eq_splitOnP] at h
  have other := Text.forall_of_mem_splitOnP _ source piece h terminator mem
  exact absurd (beq_self_eq_true terminator) (ne_true_of_eq_false other)

theorem infix_of_mem_splitOn {source piece : List Char} (h : piece ∈ source.splitOn terminator) :
    piece <:+: source := by
  induction source using piece_induction with
  | last text clean =>
      rw [splitOn_of_clean clean] at h
      rcases List.mem_singleton.mp h with rfl
      exact List.infix_refl _
  | next text rest clean ih =>
      rw [splitOn_append, splitOn_of_clean clean] at h
      rcases List.mem_cons.mp h with rfl | later
      · exact (List.prefix_append _ _).isInfix
      · have behind : rest <:+ text ++ terminator :: rest :=
          (List.suffix_cons terminator rest).trans (List.suffix_append text _)
        exact (ih later).trans behind.isInfix

/-- The entries of an exported listing are those of the first headers of its pieces. -/
theorem entries_eq_map_matched {source : List Char} (occurs : Occurs source) :
    entries source = (matched source).map entryOf := by
  rw [← (blocks_iff_of_occurs occurs).mp (blocks_splitOn source), matched, List.map_filterMap]
  refine List.filterMap_congr ?_
  intro piece hpiece
  exact entryOf?_eq_map (clean_of_mem_splitOn hpiece)

/-- The header of an entry is spelled in the listing, in front of its payload. -/
theorem exists_spelled_of_mem_matched {source payload : List Char} {header : Header}
    (h : (header, payload) ∈ matched source) :
    ∃ before spelled behind, source = before ++ (spelled ++ (payload ++ behind)) ∧
      header.Spells spelled := by
  obtain ⟨piece, hpiece, found⟩ := List.mem_filterMap.mp h
  obtain ⟨front, back, rfl⟩ := infix_of_mem_splitOn hpiece
  obtain ⟨skipped, spelled, rfl, spells⟩ := exists_of_firstHeader? found
  exact ⟨front ++ skipped, spelled, back, by simp only [List.append_assoc], spells⟩

theorem digits_of_spells {header : Header} {spelled : List Char} (h : header.Spells spelled) :
    Digits header.digits := by
  obtain ⟨-, -, digits, -⟩ := h
  exact digits

/-- **Numbers of entries.**  The entries of an exported listing are those of headers that are spelled
in it, each in front of its payload.  The number of an entry is the one that the digits of its header
stand for if they are ASCII digits, and zero otherwise; so it is that number exactly if they are, or
if they stand for zero.  Of two headers with ASCII digits the entries are attached to the same exactly
if keyword and number are the same. -/
theorem entries_numbered {source : List Char} (occurs : Occurs source) :
    entries source = (matched source).map entryOf ∧
    (∀ header payload, (header, payload) ∈ matched source →
      (∃ before spelled behind, source = before ++ (spelled ++ (payload ++ behind)) ∧
        header.Spells spelled) ∧
      header.decimal ≤ 999999999 ∧
      header.number = (if header.IsAscii then header.decimal else 0) ∧
      (header.number = header.decimal ↔ header.IsAscii ∨ header.decimal = 0)) ∧
    ∀ first ∈ matched source, ∀ second ∈ matched source,
      first.1.IsAscii → second.1.IsAscii →
        ((entryOf first).kind = (entryOf second).kind ↔
          first.1.keyword = second.1.keyword ∧ first.1.decimal = second.1.decimal) := by
  refine ⟨entries_eq_map_matched occurs, ?_, ?_⟩
  · intro header payload h
    obtain ⟨before, spelled, behind, place, spells⟩ := exists_spelled_of_mem_matched h
    exact ⟨⟨before, spelled, behind, place, spells⟩, Header.decimal_le (digits_of_spells spells),
      header.number_eq, header.number_eq_decimal_iff⟩
  · intro first _ second _ ascii ascii'
    show first.1.kind = second.1.kind ↔ _
    rw [Header.kind_eq_iff, Header.number_eq, Header.number_eq, if_pos ascii, if_pos ascii']

/-- Two headers with the number seven, one of them with leading zeros. -/
theorem entries_numbered_leading_zeros :
    let source := "DEFINE COMMENT 7 ab;DEFINE COMMENT 007 cd;".toList
    let first : Header × List Char := (⟨.comment, "7".toList⟩, "ab".toList)
    let second : Header × List Char := (⟨.comment, "007".toList⟩, "cd".toList)
    Occurs source ∧ first ∈ matched source ∧ second ∈ matched source ∧
      first.1.IsAscii ∧ second.1.IsAscii ∧ second.1.number = 7 ∧
      entries source = [⟨.comment 7, "ab".toList⟩, ⟨.comment 7, "cd".toList⟩] ∧
      (entryOf first).kind = (entryOf second).kind := by
  intro source first second
  have occurs : Occurs source := not_not.mp (mt headers_eq_nil_iff.mpr (by decide))
  have read : matched source = [first, second] := by decide
  have mem : first ∈ matched source := by rw [read]; exact List.mem_cons_self
  have mem' : second ∈ matched source := by
    rw [read]
    exact List.mem_cons_of_mem first List.mem_cons_self
  have ascii : first.1.IsAscii := by decide
  have ascii' : second.1.IsAscii := by decide
  obtain ⟨all, numbers, same⟩ := entries_numbered occurs
  refine ⟨occurs, mem, mem', ascii, ascii', ?_, ?_, ?_⟩
  · exact (numbers _ _ mem').2.2.2.mpr (.inl ascii')
  · rw [all, read]
    decide
  · exact (same first mem second mem' ascii ascii').mpr (by decide)

/-- Headers with the Arabic digits three and four are both read as zero. -/
theorem numbers_lost :
    let source := "DEFINE COMMENT \u0663 ab;DEFINE COMMENT \u0664 cd;".toList
    Occurs source ∧ (matched source).map (fun found => found.1.decimal) = [3, 4] ∧
      (entries source).map Entry.kind = [.comment 0, .comment 0] := by
  intro source
  have occurs : Occurs source := not_not.mp (mt headers_eq_nil_iff.mpr (by decide))
  refine ⟨occurs, by decide, ?_⟩
  rw [entries_eq_map_matched occurs]
  decide

end PenDrawing.Listing
