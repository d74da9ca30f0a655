import PenDrawing.Proofs.Base64
import PenDrawing.Proofs.Outcome
import Mathlib.Algebra.Ring.Nat
import Mathlib.Data.List.Basic

/-!
# Which texts are base64

A text is base64 if it is symbols of the alphabet with none, some or all of the signs behind them
that fill up the last group (`Grammar`), where the symbols are as many as some number of bytes needs
and leave no bit set that is in no byte (`Canonical`).  The route:

* symbols stand for bits, six each, and bytes are eight of them (`Denotes`); what is written for
  bytes stands for these (`denotes_encode`), and no symbols stand for two lists of bytes
  (`eq_of_denotes`);
* the canonical texts are those that are written for bytes (`canonical_encode`,
  `exists_encode_of_canonical`), and each stands for its own bytes (`denotes_encode_iff`);
* a text of whole groups that is read at all is what is written for its bytes, filled up
  (`pad_encode_of_decodeFrom`), so the texts that are read after they were filled up are those of
  the grammar (`grammar_of_decode_pad`, `decode_pad_of_grammar`).
-/

namespace PenDrawing.Base64

/-! ## The grammar -/

/-- The symbols, each at the place of the six bits that it stands for. -/
def alphabet : List UInt8 :=
  "ABCDEFGHIJKLMNOPQRSTUVWXYZabcdefghijklmnopqrstuvwxyz0123456789+/".toList.map
    fun c => UInt8.ofNat c.toNat

/-- Symbols that stand for a whole number of bytes: the last group is not one symbol alone, and the
low bits of the last symbol that are past the last byte are zeros. -/
structure Canonical (body : List UInt8) : Prop where
  mem_alphabet : ∀ s ∈ body, s ∈ alphabet
  length_mod : body.length % 4 ≠ 1
  spare : ∀ s ∈ body.getLast?, alphabet.idxOf s % 2 ^ (6 * body.length % 8) = 0

/-- A text is canonical symbols, and at most so many `=` as fill up the last group. -/
structure Grammar (text body : List UInt8) : Prop where
  canonical : Canonical body
  filled : ∃ fill ≤ paddingNeeded body.length, text = body ++ List.replicate fill filler

/-- So many low bits of a number, the highest one first. -/
def bits : Nat → Nat → List Bool
  | 0, _ => []
  | count + 1, n => bits count (n / 2) ++ [n % 2 == 1]

/-- The bits that a symbol stands for. -/
def symbolBits (s : UInt8) : List Bool := bits 6 (alphabet.idxOf s)

/-- The bits of a byte. -/
def byteBits (b : UInt8) : List Bool := bits 8 b.toNat

/-- The bytes that symbols stand for are their bits, eight to a byte, with fewer than eight left
over. -/
def Denotes (body bytes : List UInt8) : Prop :=
  ∃ spare : List Bool, spare.length < 8 ∧
    body.flatMap symbolBits = bytes.flatMap byteBits ++ spare

/-! ## Symbols of the alphabet -/

/-- The alphabet lists the symbols of the numbers below 64 in their order. -/
theorem alphabet_eq : alphabet = (List.range 64).map symbol := by
  decide +kernel

theorem mem_alphabet_iff {s : UInt8} : s ∈ alphabet ↔ ∃ v < 64, symbol v = s := by
  rw [alphabet_eq, List.mem_map]
  simp only [List.mem_range]

theorem idxOf_symbol : ∀ v < 64, alphabet.idxOf (symbol v) = v := by
  decide +kernel

/-- A symbol stands for the six bits of its number. -/
theorem symbolBits_symbol {v : Nat} (h : v < 64) : symbolBits (symbol v) = bits 6 v := by
  rw [symbolBits, idxOf_symbol v h]

/-- What is read as a number is the symbol of that number. -/
theorem symbol_of_sextet? {s : UInt8} {v : Nat} (h : sextet? s = some v) :
    v < 64 ∧ symbol v = s := by
  have all : ∀ n < 256, ∀ v ∈ sextet? (UInt8.ofNat n), v < 64 ∧ symbol v = UInt8.ofNat n := by
    decide +kernel
  have this := all s.toNat s.toNat_lt v
  rw [UInt8.ofNat_toNat] at this
  exact this h

theorem symbol_of_sextetAt {offset v : Nat} {s : UInt8} (h : sextetAt offset s = .ok v) :
    v < 64 ∧ symbol v = s := by
  rw [sextetAt] at h
  cases six : sextet? s with
  | none =>
      rw [six] at h
      cases h
  | some w =>
      rw [six] at h
      cases h
      exact symbol_of_sextet? six

/-! ## Bits -/

theorem length_bits (count n : Nat) : (bits count n).length = count := by
  induction count generalizing n with
  | zero => rfl
  | succ count ih => rw [bits, List.length_append, ih, List.length_singleton]

/-- The bits of two numbers, one behind the other, are those of one number. -/
theorem bits_append (m : Nat) {n q : Nat} (p : Nat) (h : q < 2 ^ n) :
    bits m p ++ bits n q = bits (m + n) (p * 2 ^ n + q) := by
  induction n generalizing q with
  | zero =>
      have : q = 0 := by omega
      rw [this, Nat.pow_zero, Nat.mul_one]
      exact List.append_nil _
  | succ n ih =>
      have half : q / 2 < 2 ^ n := by omega
      have high : (p * 2 ^ (n + 1) + q) / 2 = p * 2 ^ n + q / 2 := by
        rw [Nat.pow_succ, ← Nat.mul_assoc]
        omega
      have low : (p * 2 ^ (n + 1) + q) % 2 = q % 2 := by
        rw [Nat.pow_succ, ← Nat.mul_assoc]
        omega
      rw [← Nat.add_assoc, bits, bits, high, low, ← List.append_assoc, ih half]

theorem bits_inj {count m n : Nat} (hm : m < 2 ^ count) (hn : n < 2 ^ count)
    (h : bits count m = bits count n) : m = n := by
  induction count generalizing m n with
  | zero => omega
  | succ count ih =>
      obtain ⟨high, low⟩ := List.append_inj h (by rw [length_bits, length_bits])
      have halves := ih (by omega) (by omega) high
      have last : (m % 2 == 1) = (n % 2 == 1) := List.head_eq_of_cons_eq low
      have parity : m % 2 = 1 ↔ n % 2 = 1 := by
        rw [← beq_iff_eq, last, beq_iff_eq]
      omega

theorem length_byteBits (b : UInt8) : (byteBits b).length = 8 := length_bits 8 _

/-- Bytes are told apart by their bits. -/
theorem byteBits_inj {a b : UInt8} (h : byteBits a = byteBits b) : a = b :=
  UInt8.toNat_inj.mp (bits_inj a.toNat_lt b.toNat_lt h)

/-- No bits that are left over make a byte. -/
theorem ne_byteBits_append {spare : List Bool} (few : spare.length < 8) (b : UInt8)
    (rest : List Bool) : spare ≠ byteBits b ++ rest := by
  intro same
  have count := congrArg List.length same
  rw [List.length_append, length_byteBits] at count
  omega

/-- Symbols stand for one list of bytes only. -/
theorem eq_of_denotes {body bytes bytes' : List UInt8} (h : Denotes body bytes)
    (h' : Denotes body bytes') : bytes = bytes' := by
  obtain ⟨spare, few, same⟩ := h
  obtain ⟨spare', few', same'⟩ := h'
  have cut := same.symm.trans same'
  clear same same'
  induction bytes generalizing bytes' with
  | nil =>
      cases bytes' with
      | nil => rfl
      | cons b rest =>
          rw [List.flatMap_cons, List.append_assoc] at cut
          exact absurd cut (ne_byteBits_append few b _)
  | cons a bytes ih =>
      rw [List.flatMap_cons, List.append_assoc] at cut
      cases bytes' with
      | nil => exact absurd cut.symm (ne_byteBits_append few' a _)
      | cons b rest =>
          rw [List.flatMap_cons, List.append_assoc] at cut
          obtain ⟨first, later⟩ := List.append_inj cut (by rw [length_byteBits, length_byteBits])
          rw [byteBits_inj first, ih later]

/-! ## What is written is canonical -/

/-- The bits that a last symbol has to spare are the low bits of its number. -/
theorem spare_concat_iff (before : List UInt8) {v : Nat} (hv : v < 64) (count : Nat) :
    (∀ s ∈ (before ++ [symbol v]).getLast?, alphabet.idxOf s % 2 ^ count = 0) ↔
      v % 2 ^ count = 0 := by
  rw [List.getLast?_concat]
  simp only [Option.mem_some_iff, forall_eq', idxOf_symbol v hv]

/-- A whole group in front does not change whether symbols are canonical. -/
theorem canonical_cons₄ {a b c d : UInt8} {rest : List UInt8}
    (group : ∀ s ∈ [a, b, c, d], s ∈ alphabet) :
    Canonical (a :: b :: c :: d :: rest) ↔ Canonical rest := by
  have length : (a :: b :: c :: d :: rest).length = rest.length + 4 := rfl
  have whole : 6 * (rest.length + 4) % 8 = 6 * rest.length % 8 := by omega
  constructor
  · rintro ⟨mem, mod, spare⟩
    refine ⟨fun s hs => mem s (List.mem_append_right [a, b, c, d] hs), by omega, ?_⟩
    cases rest with
    | nil => exact fun s hs => absurd hs (Option.not_mem_none s)
    | cons e rest =>
        rw [length, whole] at spare
        exact spare
  · rintro ⟨mem, mod, spare⟩
    refine ⟨?_, by omega, ?_⟩
    · intro s hs
      rcases List.mem_append.mp (show s ∈ [a, b, c, d] ++ rest from hs) with first | later
      · exact group s first
      · exact mem s later
    · cases rest with
      | nil =>
          intro s _
          rw [length, whole]
          exact Nat.mod_one _
      | cons e rest =>
          rw [length, whole]
          exact spare

/-- What is encoded is canonical: its spare bits are zero. -/
theorem canonical_encode (bytes : List UInt8) : Canonical (encode bytes) := by
  have mem : ∀ s ∈ encode bytes, s ∈ alphabet := by
    intro s hs
    obtain ⟨v, hv, rfl⟩ := exists_symbol_of_mem_encode hs
    exact mem_alphabet_iff.mpr ⟨v, hv, rfl⟩
  fun_induction encode bytes with
  | case1 => exact ⟨mem, by decide, fun s hs => absurd hs (Option.not_mem_none s)⟩
  | case2 x =>
      have hx := x.toNat_lt
      have spare : x.toNat % 4 * 16 % 2 ^ 4 = 0 := by omega
      exact ⟨mem, show 2 % 4 ≠ 1 by decide,
        (spare_concat_iff [_] (by omega) (6 * 2 % 8)).mpr spare⟩
  | case3 x y =>
      have hy := y.toNat_lt
      have spare : y.toNat % 16 * 4 % 2 ^ 2 = 0 := by omega
      exact ⟨mem, show 3 % 4 ≠ 1 by decide,
        (spare_concat_iff [_, _] (by omega) (6 * 3 % 8)).mpr spare⟩
  | case4 x y z rest ih =>
      refine (canonical_cons₄ fun s hs => mem s (List.mem_append_left _ hs)).mpr ?_
      exact ih fun s hs => mem s (List.mem_append_right [_, _, _, _] hs)

/-- What is written for bytes stands for them. -/
theorem denotes_encode (bytes : List UInt8) : Denotes (encode bytes) bytes := by
  fun_induction encode bytes with
  | case1 => exact ⟨[], by decide, rfl⟩
  | case2 x =>
      have hx := x.toNat_lt
      refine ⟨bits 4 0, by decide, ?_⟩
      simp only [List.flatMap_cons, List.flatMap_nil, List.append_nil, byteBits]
      rw [symbolBits_symbol (by omega), symbolBits_symbol (by omega), bits_append 6 _ (by omega),
        bits_append 8 _ (by omega)]
      congr 1
      omega
  | case3 x y =>
      have hx := x.toNat_lt
      have hy := y.toNat_lt
      refine ⟨bits 2 0, by decide, ?_⟩
      simp only [List.flatMap_cons, List.flatMap_nil, List.append_nil, byteBits]
      rw [symbolBits_symbol (by omega), symbolBits_symbol (by omega), symbolBits_symbol (by omega),
        bits_append 6 _ (by omega), bits_append 6 _ (by omega), bits_append 8 _ (by omega),
        bits_append 16 _ (by omega)]
      congr 1
      omega
  | case4 x y z rest ih =>
      have hx := x.toNat_lt
      have hy := y.toNat_lt
      have hz := z.toNat_lt
      obtain ⟨spare, few, same⟩ := ih
      refine ⟨spare, few, ?_⟩
      simp only [List.flatMap_cons]
      rw [same, symbolBits_symbol (by omega), symbolBits_symbol (by omega),
        symbolBits_symbol (by omega), symbolBits_symbol (by omega)]
      simp only [← List.append_assoc]
      congr 2
      -- four symbols and three bytes are the same 24 bits
      simp only [byteBits]
      rw [bits_append 6 _ (by omega), bits_append 12 _ (by omega), bits_append 18 _ (by omega),
        bits_append 8 _ (by omega), bits_append 16 _ (by omega)]
      congr 1
      omega

/-- No symbols that are written for bytes stand for other bytes. -/
theorem denotes_encode_iff (bytes bytes' : List UInt8) :
    Denotes (encode bytes) bytes' ↔ bytes' = bytes := by
  constructor
  · intro h
    exact eq_of_denotes h (denotes_encode bytes)
  · rintro rfl
    exact denotes_encode bytes'

/-! ## What is canonical is written -/

section

variable {a b c d : Nat}

theorem encode_three (ha : a < 64) (hb : b < 64) (hc : c < 64) (hd : d < 64)
    (rest : List UInt8) : encode (tripleBytes a b c d ++ rest) =
      symbol a :: symbol b :: symbol c :: symbol d :: encode rest := by
  show encode (UInt8.ofNat _ :: UInt8.ofNat _ :: UInt8.ofNat _ :: rest) = _
  rw [encode]
  simp only [UInt8.toNat_ofNat']
  congr 5
  · omega
  · omega
  · omega
  · omega

theorem encode_two (ha : a < 64) (hb : b < 64) (hc : c < 64) (spare : c % 4 = 0) :
    encode ((tripleBytes a b c 0).take 2) = [symbol a, symbol b, symbol c] := by
  show encode [UInt8.ofNat _, UInt8.ofNat _] = _
  rw [encode]
  simp only [UInt8.toNat_ofNat']
  congr 4
  · omega
  · omega
  · omega

theorem encode_one (ha : a < 64) (hb : b < 64) (spare : b % 16 = 0) :
    encode ((tripleBytes a b 0 0).take 1) = [symbol a, symbol b] := by
  show encode [UInt8.ofNat _] = _
  rw [encode]
  simp only [UInt8.toNat_ofNat']
  congr 3
  · omega
  · omega

end

/-- Each canonical text is written for some bytes. -/
theorem exists_encode_of_canonical : ∀ {body : List UInt8}, Canonical body →
    ∃ bytes, encode bytes = body
  | [], _ => ⟨[], rfl⟩
  | [_], h => absurd rfl h.length_mod
  | [s₀, s₁], h => by
      obtain ⟨a, ha, rfl⟩ := mem_alphabet_iff.mp (h.mem_alphabet s₀ (by simp))
      obtain ⟨b, hb, rfl⟩ := mem_alphabet_iff.mp (h.mem_alphabet s₁ (by simp))
      have spare : b % 2 ^ 4 = 0 := (spare_concat_iff [_] hb (6 * 2 % 8)).mp h.spare
      exact ⟨_, encode_one ha hb spare⟩
  | [s₀, s₁, s₂], h => by
      obtain ⟨a, ha, rfl⟩ := mem_alphabet_iff.mp (h.mem_alphabet s₀ (by simp))
      obtain ⟨b, hb, rfl⟩ := mem_alphabet_iff.mp (h.mem_alphabet s₁ (by simp))
      obtain ⟨c, hc, rfl⟩ := mem_alphabet_iff.mp (h.mem_alphabet s₂ (by simp))
      have spare : c % 2 ^ 2 = 0 := (spare_concat_iff [_, _] hc (6 * 3 % 8)).mp h.spare
      exact ⟨_, encode_two ha hb hc spare⟩
  | s₀ :: s₁ :: s₂ :: s₃ :: rest, h => by
      have group : ∀ s ∈ [s₀, s₁, s₂, s₃], s ∈ alphabet :=
        fun s hs => h.mem_alphabet s (List.mem_append_left rest hs)
      obtain ⟨bytes, rfl⟩ := exists_encode_of_canonical ((canonical_cons₄ group).mp h)
      obtain ⟨a, ha, rfl⟩ := mem_alphabet_iff.mp (group s₀ (by simp))
      obtain ⟨b, hb, rfl⟩ := mem_alphabet_iff.mp (group s₁ (by simp))
      obtain ⟨c, hc, rfl⟩ := mem_alphabet_iff.mp (group s₂ (by simp))
      obtain ⟨d, hd, rfl⟩ := mem_alphabet_iff.mp (group s₃ (by simp))
      exact ⟨_, encode_three ha hb hc hd bytes⟩

/-! ## What is read is in the grammar -/

section

variable {offset : Nat} {s₀ s₁ s₂ s₃ : UInt8} {bytes : List UInt8}

/-- A group that was read is what its bytes are encoded as, with the rest behind it. -/
theorem encode_of_group (h : group offset s₀ s₁ s₂ s₃ = .ok bytes) (rest : List UInt8) :
    encode (bytes ++ rest) = s₀ :: s₁ :: s₂ :: s₃ :: encode rest := by
  obtain ⟨a, first, h₁⟩ := exists_of_bind h
  obtain ⟨b, second, h₂⟩ := exists_of_bind h₁
  obtain ⟨c, third, h₃⟩ := exists_of_bind h₂
  obtain ⟨d, fourth, h₄⟩ := exists_of_bind h₃
  obtain ⟨ha, rfl⟩ := symbol_of_sextetAt first
  obtain ⟨hb, rfl⟩ := symbol_of_sextetAt second
  obtain ⟨hc, rfl⟩ := symbol_of_sextetAt third
  obtain ⟨hd, rfl⟩ := symbol_of_sextetAt fourth
  rw [← Except.ok.inj h₄]
  exact encode_three ha hb hc hd rest

/-- The last group that was read is what its bytes are encoded as, padded. -/
theorem pad_encode_of_lastGroup (h : lastGroup offset s₀ s₁ s₂ s₃ = .ok bytes) :
    pad (encode bytes) = [s₀, s₁, s₂, s₃] := by
  obtain ⟨a, first, h₁⟩ := exists_of_bind h
  obtain ⟨b, second, h₂⟩ := exists_of_bind h₁
  obtain ⟨ha, rfl⟩ := symbol_of_sextetAt first
  obtain ⟨hb, rfl⟩ := symbol_of_sextetAt second
  by_cases two : s₂ = filler
  · -- two symbols
    rw [if_pos two] at h₂
    by_cases filled : s₃ = filler
    · rw [if_neg (not_not.mpr filled)] at h₂
      by_cases spare : b % 16 = 0
      · rw [if_neg (not_not.mpr spare)] at h₂
        rw [← Except.ok.inj h₂, encode_one ha hb spare, two, filled]
        rfl
      · rw [if_pos spare] at h₂
        cases h₂
    · rw [if_pos filled] at h₂
      cases h₂
  · rw [if_neg two] at h₂
    obtain ⟨c, third, h₃⟩ := exists_of_bind h₂
    obtain ⟨hc, rfl⟩ := symbol_of_sextetAt third
    by_cases three : s₃ = filler
    · -- three symbols
      rw [if_pos three] at h₃
      by_cases spare : c % 4 = 0
      · rw [if_neg (not_not.mpr spare)] at h₃
        rw [← Except.ok.inj h₃, encode_two ha hb hc spare, three]
        rfl
      · rw [if_pos spare] at h₃
        cases h₃
    · -- four symbols
      rw [if_neg three] at h₃
      obtain ⟨d, fourth, h₄⟩ := exists_of_bind h₃
      obtain ⟨hd, rfl⟩ := symbol_of_sextetAt fourth
      rw [← Except.ok.inj h₄, ← List.append_nil (tripleBytes a b c d),
        encode_three ha hb hc hd [], pad_cons₄]
      rfl

end

/-- What is read in whole groups is what is written for the bytes, filled up. -/
theorem pad_encode_of_decodeFrom {offset : Nat} {text bytes : List UInt8}
    (whole : text.length % 4 = 0) (h : decodeFrom offset text = .ok bytes) :
    pad (encode bytes) = text := by
  fun_induction decodeFrom offset text generalizing bytes with
  | case1 =>
      cases h
      rfl
  | case2 | case3 | case4 => cases whole
  | case5 offset s₀ s₁ s₂ s₃ => exact pad_encode_of_lastGroup h
  | case6 offset s₀ s₁ s₂ s₃ rest more ih =>
      obtain ⟨front, first, h₁⟩ := exists_of_bind h
      obtain ⟨later, read, h₂⟩ := exists_of_bind h₁
      have groups : rest.length % 4 = 0 := by
        simp only [List.length_cons] at whole
        omega
      rw [← Except.ok.inj h₂, encode_of_group first, pad_cons₄, ih groups read]

/-- Where a text and a body without signs are the same once both are filled up with signs, and the
body with at most so many, the text is the body and some of these. -/
theorem exists_replicate_of_append {α : Type} {s : α} {text body : List α} {m n : Nat}
    (unsigned : s ∉ body) (h : body ++ List.replicate n s = text ++ List.replicate m s) :
    ∃ fill ≤ n, text = body ++ List.replicate fill s := by
  rcases List.append_eq_append_iff.mp h with ⟨middle, rfl, signs⟩ | ⟨middle, rfl, signs⟩
  · obtain ⟨count, same, -⟩ := List.replicate_eq_append_iff.mp signs
    refine ⟨middle.length, by omega, ?_⟩
    rw [← same]
  · -- what the text falls short of would be signs
    have none : middle = [] := by
      rw [List.eq_nil_iff_forall_not_mem]
      intro t ht
      have sign : t ∈ List.replicate m s := by
        rw [signs]
        exact List.mem_append_left _ ht
      rw [List.eq_of_mem_replicate sign] at ht
      exact unsigned (List.mem_append_right text ht)
    rw [none]
    exact ⟨0, Nat.zero_le n, by rw [List.append_nil, List.replicate_zero, List.append_nil]⟩

/-- A text that is read once its last group is filled up has the form of what is written. -/
theorem grammar_of_decode_pad {text bytes : List UInt8} (h : decode (pad text) = .ok bytes) :
    Grammar text (encode bytes) := by
  have same : pad (encode bytes) = pad text := pad_encode_of_decodeFrom (length_pad_mod text) h
  have unsigned : filler ∉ encode bytes := by
    intro sign
    obtain ⟨v, hv, found⟩ := exists_symbol_of_mem_encode sign
    exact symbol_ne_filler v hv found.symm
  exact ⟨canonical_encode bytes, exists_replicate_of_append unsigned same⟩

/-- Every text of the grammar is read as the bytes that it denotes. -/
theorem decode_pad_of_grammar {text bytes : List UInt8} (h : Grammar text (encode bytes)) :
    decode (pad text) = .ok bytes := by
  obtain ⟨-, fill, few, rfl⟩ := h
  rw [pad_append_filler few, decode_pad_encode]

end PenDrawing.Base64
