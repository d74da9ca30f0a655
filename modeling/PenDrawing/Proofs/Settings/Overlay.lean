import PenDrawing.Proofs.Settings.Slot
import PenDrawing.Proofs.Toml.Keyed

/-!
# A document is laid over the standard settings

A document holds each key once (`Toml.keyed_parse`), so what becomes of a setting depends on nothing
but the value at its place: it is of the kind that the setting expects, and is what the setting
becomes (`Slot.takes_of_holds`), and without one the setting is as preset (`Slot.get_eq_preset`).
Documents in which all such values **`Fits`** are read (`exists_ofEntries`), and one with a value
that does not fit is refused, whatever else it holds.  Together these say what the settings of a
text are (`parse_overlay`).
-/

namespace PenDrawing.Settings

/-! ## One setting of a document -/

variable {γ α : Type}

section

variable {doc : Toml.Entries} (keyed : doc.Keyed) {s : Settings} (read : ofEntries doc = .ok s)
  (slot : Slot α)

include keyed read

/-- A setting goes by its section, wherever in the document that stands. -/
theorem Slot.laid_of_ofEntries :
    (∀ v, (slot.group, v) ∈ doc →
      ByTable slot.key slot.Takes slot.preset v.value (slot.get s)) ∧
    (slot.group ∉ doc.map Prod.fst → slot.get s = slot.preset) := by
  rw [← slot.get_standard]
  exact slot.tracks.of_foldlM keyed.distinct read

/-- What a document holds for a setting is of the kind that the setting expects, and is what the
setting becomes. -/
theorem Slot.takes_of_holds {v : Toml.Value} (holds : slot.Holds doc v) :
    slot.Takes v (slot.get s) := by
  obtain ⟨span, origin, entries, inner, place, mem⟩ := holds
  have distinct := (Toml.Value.keyed_table.mp (keyed.each _ place)).distinct
  exact ((slot.laid_of_ofEntries keyed read).1 _ place origin entries rfl distinct).1 _ mem

/-- A setting for which a document holds nothing is as preset. -/
theorem Slot.get_eq_preset
    (tables : ∀ v, (slot.group, v) ∈ doc → ∃ origin entries, v.value = .table origin entries)
    (none : ∀ v, ¬ slot.Holds doc v) : slot.get s = slot.preset := by
  obtain ⟨found, missing⟩ := slot.laid_of_ofEntries keyed read
  by_cases here : slot.group ∈ doc.map Prod.fst
  · obtain ⟨⟨name, v⟩, place, rfl⟩ := List.mem_map.mp here
    obtain ⟨origin, entries, table⟩ := tables v place
    have distinct := keyed.each _ place
    rw [table] at distinct
    refine (found v place origin entries table (Toml.Value.keyed_table.mp distinct).distinct).2 ?_
    intro mem
    obtain ⟨⟨key, w⟩, inside, rfl⟩ := List.mem_map.mp mem
    obtain ⟨span, value⟩ := v
    exact none w.value ⟨span, origin, entries, w.span, table ▸ place, inside⟩
  · exact missing here

end

/-! ## Documents that are read -/

/-- The sections that settings are looked for in are tables, and every value at the place of a
setting is of the kind that the setting expects. -/
structure Fits (doc : Toml.Entries) : Prop where
  tables : ∀ {α : Type} (slot : Slot α) v, (slot.group, v) ∈ doc →
    ∃ origin entries, v.value = .table origin entries
  values : ∀ {α : Type} (slot : Slot α) v, slot.Holds doc v → ∃ x, slot.Takes v x

section

variable {doc : Toml.Entries} (fits : Fits doc)

include fits

theorem sectionField_reads_of_fits (slot : Slot α) {report : String} {fields : List (Field γ)}
    (covers : Covers slot.group fields) {outer : Settings → γ} {put : γ → Settings → Settings}
    {entry : String × Toml.Located Toml.Value} (mem : entry ∈ doc) (same : slot.group = entry.1) :
    (sectionField slot.group report fields outer put).Reads entry.2 := by
  obtain ⟨name, span, value⟩ := entry
  obtain rfl : slot.group = name := same
  obtain ⟨origin, entries, rfl⟩ := fits.tables slot _ mem
  refine sectionField_reads fun ⟨key, inner, v⟩ inside field known found => ?_
  obtain ⟨β, other, set, group, rfl⟩ := covers field known
  obtain rfl : other.key = key := found
  obtain ⟨x, takes⟩ := fits.values other v ⟨span, origin, entries, inner, group ▸ mem, inside⟩
  exact Field.reads_of (other.reader_eq_ok_iff.mpr takes)

/-- A document that fits is read as settings. -/
theorem exists_ofEntries : ∃ s, ofEntries doc = .ok s := by
  refine exists_foldlM (fun entry mem => ?_) standard
  rw [groups_eq]
  exact List.forall_mem_cons.mpr
    ⟨sectionField_reads_of_fits fits .windowWidth covers_window mem, List.forall_mem_cons.mpr
      ⟨sectionField_reads_of_fits fits .dotSize covers_style mem, List.forall_mem_cons.mpr
        ⟨sectionField_reads_of_fits fits .speed covers_speed mem, List.forall_mem_singleton.mpr
          (sectionField_reads_of_fits fits .imageWidth covers_output mem)⟩⟩⟩

/-- The settings of a document are those that are laid over by it, and no others. -/
theorem eq_iff_overlaid (keyed : doc.Keyed) {s : Settings} (read : ofEntries doc = .ok s)
    (t : Settings) : t = s ↔ ∀ {α : Type} (slot : Slot α), slot.Overlaid doc (slot.get t) := by
  have laid : ∀ {α : Type} (slot : Slot α), slot.Overlaid doc (slot.get s) := fun slot =>
    ⟨fun v => slot.takes_of_holds keyed read, slot.get_eq_preset keyed read (fits.tables slot)⟩
  constructor
  · rintro rfl
    exact laid
  · intro overlaid
    refine Slot.ext fun slot => ?_
    by_cases held : ∃ v, slot.Holds doc v
    · obtain ⟨v, holds⟩ := held
      exact slot.eq_of_takes ((overlaid slot).1 v holds) ((laid slot).1 v holds)
    · have none := not_exists.mp held
      rw [(overlaid slot).2 none, (laid slot).2 none]

end

/-! ## Texts -/

section

variable {text : String} {doc : Toml.Entries} (document : Toml.parse text = some doc)

include document

theorem parse_of_ok {s : Settings} (read : ofEntries doc = .ok s) : parse text = .ok s := by
  simp only [parse, document, read]

/-- A document that does not fit is refused with the place of the fault. -/
theorem parse_of_error {fault : Toml.Located TypeError} (read : ofEntries doc = .error fault) :
    parse text = .error (.type (fault.span.excerpt text.toList) fault.value) := by
  simp only [parse, document, read]

end

/-- **A document is laid over the standard settings, setting by setting.**  If its sections are
tables and what it holds for the settings is of the kinds that they expect, its text is read, and
the result is the only one in which every setting is what the document holds at the setting's place,
and is as preset if there is nothing.  If it holds a text for a setting, or a whole number out of
range, the text is refused. -/
theorem parse_overlay {text : String} {doc : Toml.Entries}
    (document : Toml.parse text = some doc) :
    (Fits doc → ∃ s, parse text = .ok s ∧
      ∀ t, t = s ↔ ∀ {α : Type} (slot : Slot α), slot.Overlaid doc (slot.get t)) ∧
    (∀ {α : Type} (slot : Slot α) v, slot.Holds doc v → slot.Refuses v →
      ∃ place cause, parse text = .error (.type place cause)) := by
  have keyed := Toml.keyed_parse document
  constructor
  · intro fits
    obtain ⟨s, read⟩ := exists_ofEntries fits
    exact ⟨s, parse_of_ok document read, eq_iff_overlaid fits keyed read⟩
  · intro α slot v holds refuses
    cases read : ofEntries doc with
    | error fault => exact ⟨_, _, parse_of_error document read⟩
    | ok s =>
        -- what was read is of the kind that was expected
        have takes := slot.takes_of_holds keyed read holds
        exact absurd takes (slot.not_takes_of_refuses refuses _)

/-- A document with two settings, one by a dotted key and one beside a key that means nothing. -/
def redText : String := "speed.default=3\n[style]\nname=\"red\"\nink=[1,0,0]"

def redDocument : Toml.Entries :=
  [("speed", ⟨⟨46, 41⟩, .table .dotted [("default", ⟨⟨32, 31⟩, .integer 3⟩)]⟩),
    ("style", ⟨⟨30, 0⟩, .table .header
      [("name", ⟨⟨17, 12⟩, .string "red"⟩),
        ("ink", ⟨⟨7, 0⟩,
          .array [⟨⟨6, 5⟩, .integer 1⟩, ⟨⟨4, 3⟩, .integer 0⟩, ⟨⟨2, 1⟩, .integer 0⟩]⟩)]⟩)]

/-- A document with a text where a whole number is expected. -/
def wideText : String := "[window]\nwidth=\"wide\""

def wideDocument : Toml.Entries :=
  [("window", ⟨⟨21, 0⟩, .table .header [("width", ⟨⟨6, 0⟩, .string "wide"⟩)]⟩)]

theorem parse_redText : Toml.parse redText = some redDocument := by
  have chars : redText.toList =
      ['s', 'p', 'e', 'e', 'd', '.', 'd', 'e', 'f', 'a', 'u', 'l', 't', '=', '3', '\n',
        '[', 's', 't', 'y', 'l', 'e', ']', '\n', 'n', 'a', 'm', 'e', '=', '"', 'r', 'e', 'd', '"',
        '\n', 'i', 'n', 'k', '=', '[', '1', ',', '0', ',', '0', ']'] := by decide
  rw [Toml.parse, chars]
  rfl

theorem parse_wideText : Toml.parse wideText = some wideDocument := by
  have chars : wideText.toList =
      ['[', 'w', 'i', 'n', 'd', 'o', 'w', ']', '\n', 'w', 'i', 'd', 't', 'h', '=', '"', 'w', 'i',
        'd', 'e', '"'] := by decide
  rw [Toml.parse, chars]
  rfl

/-- What the document holds for the settings. -/
theorem holds_redDocument {slot : Slot α} {v : Toml.Value} (h : slot.Holds redDocument v) :
    (slot.group = "speed" ∧ slot.key = "default" ∧ v = .integer 3) ∨
    (slot.group = "style" ∧ slot.key = "name") ∨
    (slot.group = "style" ∧ slot.key = "ink" ∧ Shades v ⟨.ofInt 1, .ofInt 0, .ofInt 0⟩) := by
  obtain ⟨span, origin, entries, inner, place, mem⟩ := h
  simp only [redDocument, List.mem_cons, Prod.mk.injEq, Toml.Located.mk.injEq,
    Toml.Value.table.injEq, List.not_mem_nil, or_false] at place
  rcases place with ⟨group, -, -, rfl⟩ | ⟨group, -, -, rfl⟩
  · simp only [List.mem_cons, Prod.mk.injEq, Toml.Located.mk.injEq, List.not_mem_nil,
      or_false] at mem
    exact .inl ⟨group, mem.1, mem.2.2⟩
  · simp only [List.mem_cons, Prod.mk.injEq, Toml.Located.mk.injEq, List.not_mem_nil,
      or_false] at mem
    rcases mem with ⟨key, -, -⟩ | ⟨key, -, rfl⟩
    · exact .inr (.inl ⟨group, key⟩)
    · exact .inr (.inr ⟨group, key, _, _, _, [], rfl, .integer 1, .integer 0, .integer 0⟩)

theorem fits_redDocument : Fits redDocument := by
  constructor
  · intro α slot v mem
    simp only [redDocument, List.mem_cons, Prod.mk.injEq, List.not_mem_nil, or_false] at mem
    rcases mem with ⟨-, rfl⟩ | ⟨-, rfl⟩
    · exact ⟨_, _, rfl⟩
    · exact ⟨_, _, rfl⟩
  · intro α slot v holds
    have found := holds_redDocument holds
    cases slot with
    | speed =>
        rcases found with ⟨-, -, rfl⟩ | ⟨group, -⟩ | ⟨group, -⟩
        · exact ⟨(3 : Nat), rfl, by decide⟩
        · exact absurd group (by decide)
        · exact absurd group (by decide)
    | ink =>
        rcases found with ⟨group, -⟩ | ⟨-, key⟩ | ⟨-, -, shades⟩
        · exact absurd group (by decide)
        · exact absurd key (by decide)
        · exact ⟨_, shades⟩
    | _ => simp [Slot.group, Slot.key] at found

/-- The speed and the ink are those of the document and the rest is as preset; a text for a width is
refused. -/
theorem parse_overlay_red_wide :
    (Toml.parse redText = some redDocument ∧ Fits redDocument ∧
      ∃ s, parse redText = .ok s ∧ s.speed = 3 ∧ s.style.ink = ⟨.ofInt 1, .ofInt 0, .ofInt 0⟩ ∧
        s.window.width = 656) ∧
    (Toml.parse wideText = some wideDocument ∧
      Slot.windowWidth.Holds wideDocument (.string "wide") ∧
      Slot.windowWidth.Refuses (.string "wide") ∧
      ∃ place cause, parse wideText = .error (.type place cause)) := by
  have holds : Slot.windowWidth.Holds wideDocument (.string "wide") :=
    ⟨_, _, _, _, List.mem_cons_self, List.mem_cons_self⟩
  have refuses : Slot.windowWidth.Refuses (.string "wide") := .inr ⟨_, rfl⟩
  obtain ⟨s, read, only⟩ := (parse_overlay parse_redText).1 fits_redDocument
  have laid {α : Type} (slot : Slot α) : slot.Overlaid redDocument (slot.get s) :=
    (only s).mp rfl slot
  refine ⟨⟨parse_redText, fits_redDocument, s, read, ?_, ?_, ?_⟩, parse_wideText, holds, refuses,
    (parse_overlay parse_wideText).2 .windowWidth _ holds refuses⟩
  · have takes := (laid .speed).1 _ ⟨_, _, _, _, List.mem_cons_self, List.mem_cons_self⟩
    have three : Slot.speed.Takes (.integer 3) (3 : Nat) := ⟨rfl, by decide⟩
    exact Slot.speed.eq_of_takes takes three
  · have takes := (laid .ink).1 _ ⟨_, _, _, _, List.mem_cons_of_mem _ List.mem_cons_self,
      List.mem_cons_of_mem _ List.mem_cons_self⟩
    exact Slot.ink.eq_of_takes takes
      ⟨_, _, _, [], rfl, .integer 1, .integer 0, .integer 0⟩
  · refine (laid .windowWidth).2 fun v held => ?_
    have found := holds_redDocument held
    simp [Slot.group] at found

end PenDrawing.Settings
