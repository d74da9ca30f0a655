/-!
# The bits of a byte stream

A compressed stream is read bit by bit, the lowest bit of each byte first. **`Bits`** is what is
still to be read: the bits left of the byte at hand, and the bytes after it. A **`Reader`** takes
some of them, or stops with a **`Halt`**.

* **`bit`** takes one bit, **`number`** several, the first one lowest, and **`align`** drops what
  is left of the byte at hand.
* **`Reader.Shrinks`** says that a reader never adds bits. It holds of all readers here and is
  kept by `bind`, so a decoder that takes at least one bit at each turn comes to an end.
-/

namespace PenDrawing.Zlib

/-- Why reading a stream stops before its end. -/
inductive Halt where
  /-- The bytes end first. -/
  | exhausted
  /-- The bytes do not follow the format. -/
  | corrupt
  /-- Enough came out already. -/
  | held
deriving DecidableEq, Repr

/-- The unread part of a byte stream: bits of the byte at hand, then whole bytes. -/
structure Bits where
  pending : List Bool
  bytes : List UInt8
deriving Repr

/-- The bits of a whole stream. -/
def Bits.ofBytes (bytes : List UInt8) : Bits := ⟨[], bytes⟩

/-- How many bits are left. -/
def Bits.size (bits : Bits) : Nat := bits.pending.length + 8 * bits.bytes.length

/-- A step that takes bits and gives a value. -/
abbrev Reader := StateT Bits (Except Halt)

namespace Reader

/-- The stream does not follow the format. -/
def corrupt {α : Type} : Reader α := fun _ => .error .corrupt

/-- The bits of a byte after its lowest one, from low to high. -/
def upperBits (b : UInt8) : List Bool :=
  [b.toNat.testBit 1, b.toNat.testBit 2, b.toNat.testBit 3, b.toNat.testBit 4, b.toNat.testBit 5,
    b.toNat.testBit 6, b.toNat.testBit 7]

/-- Takes the next bit. -/
def bit : Reader Bool := fun bits =>
  match bits.pending, bits.bytes with
  | b :: pending, bytes => .ok (b, ⟨pending, bytes⟩)
  | [], byte :: bytes => .ok (byte.toNat.testBit 0, ⟨upperBits byte, bytes⟩)
  | [], [] => .error .exhausted

/-- Takes `count` bits as a number, the first bit lowest. -/
def number : (count : Nat) → Reader Nat
  | 0 => pure 0
  | count + 1 => do
    let b ← bit
    let n ← number count
    return b.toNat + 2 * n

/-- Drops what is left of the byte at hand. -/
def align : Reader Unit := fun bits => .ok ((), ⟨[], bits.bytes⟩)

/-! ## Readers do not add bits -/

/-- A reader never leaves more bits than it found. -/
def Shrinks {α : Type} (r : Reader α) : Prop :=
  ∀ (bits rest : Bits) (a : α), r bits = .ok (a, rest) → rest.size ≤ bits.size

variable {α β : Type}

/-- What two readers in a row do: the second one reads what the first one leaves. -/
theorem bind_eq_ok {r : Reader α} {f : α → Reader β} {bits rest : Bits} {b : β}
    (h : (r >>= f) bits = .ok (b, rest)) :
    ∃ a mid, r bits = .ok (a, mid) ∧ f a mid = .ok (b, rest) := by
  simp only [bind, StateT.bind, Except.bind] at h
  split at h
  · simp at h
  · rename_i v first
    exact ⟨v.1, v.2, first, h⟩

theorem shrinks_pure (a : α) : Shrinks (pure a : Reader α) := by
  intro bits rest b h
  have h : (a, bits) = (b, rest) := Except.ok.inj h
  injection h with _ h
  exact Nat.le_of_eq (by rw [h])

theorem shrinks_corrupt : Shrinks (corrupt : Reader α) := by
  intro bits rest a h
  exact absurd h (by simp [corrupt])

theorem Shrinks.bind {r : Reader α} {f : α → Reader β} (hr : Shrinks r)
    (hf : ∀ a, Shrinks (f a)) : Shrinks (r >>= f) := by
  intro bits rest b h
  obtain ⟨a, mid, first, next⟩ := bind_eq_ok h
  exact Nat.le_trans (hf a mid rest b next) (hr bits mid a first)

theorem Shrinks.ite {c : Prop} [Decidable c] {r s : Reader α} (hr : Shrinks r)
    (hs : Shrinks s) : Shrinks (if c then r else s) := by
  split <;> assumption

/-- Taking a bit leaves one bit fewer. -/
theorem size_bit {bits rest : Bits} {b : Bool} (h : bit bits = .ok (b, rest)) :
    rest.size + 1 = bits.size := by
  obtain ⟨pending, bytes⟩ := bits
  match pending, bytes with
  | p :: pending, bytes =>
    simp only [bit, Except.ok.injEq, Prod.mk.injEq] at h
    simp [← h.2, Bits.size]; omega
  | [], byte :: bytes =>
    simp only [bit, Except.ok.injEq, Prod.mk.injEq] at h
    simp [← h.2, Bits.size, upperBits]; omega
  | [], [] => simp [bit] at h

theorem shrinks_bit : Shrinks bit := by
  intro bits rest b h
  have := size_bit h
  omega

theorem shrinks_number (count : Nat) : Shrinks (number count) := by
  induction count with
  | zero => exact shrinks_pure 0
  | succ count ih =>
    exact shrinks_bit.bind fun _ => ih.bind fun _ => shrinks_pure _

theorem shrinks_align : Shrinks align := by
  intro bits rest a h
  simp only [align, Except.ok.injEq, Prod.mk.injEq] at h
  simp [← h.2, Bits.size]

end Reader

end PenDrawing.Zlib
