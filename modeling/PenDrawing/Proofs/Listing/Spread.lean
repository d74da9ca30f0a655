import PenDrawing.Proofs.Payload

/-!
# Payloads with blanks put into them

A payload may be laid out with blanks in front of any of its characters (`spread`), in particular
broken into lines of one width (`columns`).  Up to its terminator it still has the symbols of the
stream it was written for (`exists_spread_ofStream`), so it is read as the path it was written for
(`exists_spread_encodeWith`).
-/

namespace PenDrawing.Listing

open Payload (letters ofStream symbols terminator)

/-- A text with further text put in front of its characters, by their places. -/
def spread (gaps : Nat → List Char) : (place : Nat) → List Char → List Char
  | _, [] => []
  | place, c :: cs => gaps place ++ c :: spread gaps (place + 1) cs

/-- Line breaks, if any, in front of every place that is a multiple of the width, but not in front of
the first one. -/
def columns (width : Option Nat) (place : Nat) : List Char :=
  match width with
  | none => []
  | some width => if 0 < place ∧ width ∣ place then ['\n'] else []

/-- What may be put into a payload. -/
def Wrapping (gaps : Nat → List Char) : Prop := ∀ place, ∀ c ∈ gaps place, Text.isWrap c = true

theorem wrapping_columns (width : Option Nat) : Wrapping (columns width) := by
  intro place c hc
  cases width with
  | none => cases hc
  | some width =>
      rw [columns] at hc
      by_cases broken : 0 < place ∧ width ∣ place
      · rw [if_pos broken] at hc
        rw [List.mem_singleton.mp hc]
        rfl
      · rw [if_neg broken] at hc
        cases hc

/-- A text is spread in two parts as it is as a whole. -/
theorem spread_append (gaps : Nat → List Char) (place : Nat) (front back : List Char) :
    spread gaps place (front ++ back) =
      spread gaps place front ++ spread gaps (place + front.length) back := by
  induction front generalizing place with
  | nil => rfl
  | cons c front ih =>
      rw [List.cons_append, spread, spread, ih, List.length_cons, List.append_assoc,
        List.cons_append, Nat.add_assoc, Nat.add_comm 1]

section

variable {gaps : Nat → List Char} (wraps : Wrapping gaps)

include wraps

theorem filter_gap (place : Nat) : (gaps place).filter (!Text.isWrap ·) = [] := by
  refine List.filter_eq_nil_iff.mpr fun c hc => ?_
  rw [wraps place c hc]
  exact Bool.false_ne_true

/-- What was put in goes with the wrapping. -/
theorem filter_spread (place : Nat) (cs : List Char) :
    (spread gaps place cs).filter (!Text.isWrap ·) = cs.filter (!Text.isWrap ·) := by
  induction cs generalizing place with
  | nil => rfl
  | cons c cs ih =>
      rw [spread, List.filter_append, filter_gap wraps, List.nil_append, List.filter_cons,
        List.filter_cons, ih]

/-- Spreading a text brings in nothing but what wraps. -/
theorem mem_spread {place : Nat} {cs : List Char} {c : Char} (h : c ∈ spread gaps place cs) :
    c ∈ cs ∨ Text.isWrap c = true := by
  induction cs generalizing place with
  | nil => cases h
  | cons d cs ih =>
      rcases List.mem_append.mp h with gap | rest
      · exact .inr (wraps place c gap)
      · rcases List.mem_cons.mp rest with rfl | later
        · exact .inl List.mem_cons_self
        · exact (ih later).imp_left (List.mem_cons_of_mem d)

/-- A payload that was spread out is a text with its symbols up to its terminator. -/
theorem exists_spread_ofStream (stream : List UInt8) :
    ∃ body, spread gaps 0 (ofStream stream) = body ++ [terminator] ∧ terminator ∉ body ∧
      symbols body = Base64.encode stream := by
  have cut : spread gaps 0 (ofStream stream) =
      spread gaps 0 (letters stream) ++ gaps (0 + (letters stream).length) ++ [terminator] := by
    rw [ofStream, spread_append, List.append_assoc]
    rfl
  refine ⟨_, cut, ?_, ?_⟩
  · intro h
    rcases List.mem_append.mp h with front | gap
    · rcases mem_spread wraps front with letter | wrap
      · exact Payload.terminator_not_mem_letters stream letter
      · exact absurd wrap (by decide)
    · exact absurd (wraps _ _ gap) (by decide)
  · rw [← Payload.symbols_filter, List.filter_append, filter_spread wraps, filter_gap wraps,
      List.append_nil, Payload.symbols_filter, Payload.symbols_letters]

/-- A path that fits is written, and what was written may be spread out.  Every text with the symbols
of what then stands before the terminator is read as the path. -/
theorem exists_spread_encodeWith {compress : List UInt8 → List UInt8}
    (sound : Zlib.Compresses compress) {path : Path} (fits : path.length ≤ Record.capacity) :
    ∃ stream body, Payload.encodeWith compress path = .ok (ofStream stream) ∧
      spread gaps 0 (ofStream stream) = body ++ [terminator] ∧ terminator ∉ body ∧
      symbols body ≠ [] ∧ ∀ text, symbols text = symbols body → Payload.decode text = .ok path := by
  obtain ⟨record, -, packed⟩ := Payload.pack_of_le compress fits
  obtain ⟨body, cut, clean, same⟩ := exists_spread_ofStream wraps (compress record)
  refine ⟨compress record, body, Payload.encodeWith_of_pack packed, cut, clean, ?_, ?_⟩
  · rw [same]
    exact Payload.encode_ne_nil_of_pack sound packed
  · intro text h
    exact Payload.decode_of_symbols sound packed (h.trans same)

end

end PenDrawing.Listing
