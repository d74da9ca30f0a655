import PenDrawing.Base64
import Mathlib.Tactic.Common

/-!
# Base64 loses nothing

Reading a text that was written and filled up gives back its bytes, whatever their number modulo
three.  The route:

* a symbol below 64 is read as its own six bits (`sextet?_symbol`), and is never the sign that
  fills up a group;
* each of the four shapes a written group can have is read back as its bytes
  (`group_symbols`, `lastGroup_one`, `lastGroup_two`, `lastGroup_three`);
* a filled-up text is therefore read group by group (`decodeFrom_pad_encode`).

A text that is cut off stands for first bytes of it, if for anything: a last group that is cut short
is refused or read as its own first bytes (`prefix_of_decode_pad`).
-/

namespace PenDrawing.Base64

/-! ## Symbols -/

/-- A symbol stands for the six bits it was made of. -/
theorem sextet?_symbol : ∀ v < 64, sextet? (symbol v) = some v := by
  decide

/-- No symbol is the sign that fills up a group. -/
theorem symbol_ne_filler : ∀ v < 64, symbol v ≠ filler := by
  decide

/-- Wherever a symbol stands, it is read as the number that it was written for. -/
theorem sextetAt_symbol (offset : Nat) {v : Nat} (h : v < 64) :
    sextetAt offset (symbol v) = .ok v := by
  rw [sextetAt]
  rw [sextet?_symbol v h]

/-- A text that was written consists of symbols. -/
theorem exists_symbol_of_mem_encode {bytes : List UInt8} {b : UInt8} (h : b ∈ encode bytes) :
    ∃ v < 64, b = symbol v := by
  fun_induction encode bytes with
  | case1 => cases h
  | case2 x =>
      have hx := x.toNat_lt
      simp only [List.mem_cons, List.not_mem_nil, or_false] at h
      rcases h with rfl | rfl
      · exact ⟨_, by omega, rfl⟩
      · exact ⟨_, by omega, rfl⟩
  | case3 x y =>
      have hx := x.toNat_lt
      have hy := y.toNat_lt
      simp only [List.mem_cons, List.not_mem_nil, or_false] at h
      rcases h with rfl | rfl | rfl
      · exact ⟨_, by omega, rfl⟩
      · exact ⟨_, by omega, rfl⟩
      · exact ⟨_, by omega, rfl⟩
  | case4 x y z rest ih =>
      have hx := x.toNat_lt
      have hy := y.toNat_lt
      have hz := z.toNat_lt
      simp only [List.mem_cons] at h
      rcases h with rfl | rfl | rfl | rfl | later
      · exact ⟨_, by omega, rfl⟩
      · exact ⟨_, by omega, rfl⟩
      · exact ⟨_, by omega, rfl⟩
      · exact ⟨_, by omega, rfl⟩
      · exact ih later

/-! ## Groups -/

/-- The bits of three bytes are the bytes again. -/
theorem tripleBytes_eq (x y z : UInt8) :
    tripleBytes (x.toNat / 4) (x.toNat % 4 * 16 + y.toNat / 16) (y.toNat % 16 * 4 + z.toNat / 64)
      (z.toNat % 64) = [x, y, z] := by
  have hx := x.toNat_lt
  have hy := y.toNat_lt
  have hz := z.toNat_lt
  rw [tripleBytes]
  rw [show x.toNat / 4 * 4 + (x.toNat % 4 * 16 + y.toNat / 16) / 16 = x.toNat by omega,
    show (x.toNat % 4 * 16 + y.toNat / 16) % 16 * 16 + (y.toNat % 16 * 4 + z.toNat / 64) / 4
      = y.toNat by omega,
    show (y.toNat % 16 * 4 + z.toNat / 64) % 4 * 64 + z.toNat % 64 = z.toNat by omega]
  simp only [UInt8.ofNat_toNat]

variable (offset : Nat) {a b c d : Nat}

/-- A group of four symbols stands for their bits. -/
theorem group_symbols (ha : a < 64) (hb : b < 64) (hc : c < 64) (hd : d < 64) :
    group offset (symbol a) (symbol b) (symbol c) (symbol d) = .ok (tripleBytes a b c d) := by
  rw [group]
  rw [sextetAt_symbol _ ha, sextetAt_symbol _ hb, sextetAt_symbol _ hc, sextetAt_symbol _ hd]
  rfl

/-- A last group of four symbols stands for their bits, as any other group does. -/
theorem lastGroup_three (ha : a < 64) (hb : b < 64) (hc : c < 64) (hd : d < 64) :
    lastGroup offset (symbol a) (symbol b) (symbol c) (symbol d) = .ok (tripleBytes a b c d) := by
  rw [lastGroup]
  simp only [sextetAt_symbol _ ha, sextetAt_symbol _ hb, sextetAt_symbol _ hc,
    sextetAt_symbol _ hd, bind, Except.bind]
  rw [if_neg (symbol_ne_filler c hc), if_neg (symbol_ne_filler d hd)]
  rfl

/-- A last group of three symbols stands for two bytes. -/
theorem lastGroup_two (ha : a < 64) (hb : b < 64) (hc : c < 64) (spare : c % 4 = 0) :
    lastGroup offset (symbol a) (symbol b) (symbol c) filler
      = .ok ((tripleBytes a b c 0).take 2) := by
  rw [lastGroup]
  simp only [sextetAt_symbol _ ha, sextetAt_symbol _ hb, sextetAt_symbol _ hc, bind, Except.bind]
  rw [if_neg (symbol_ne_filler c hc), if_pos trivial, if_neg (not_not.mpr spare)]
  rfl

/-- A last group of two symbols stands for one byte. -/
theorem lastGroup_one (ha : a < 64) (hb : b < 64) (spare : b % 16 = 0) :
    lastGroup offset (symbol a) (symbol b) filler filler = .ok ((tripleBytes a b 0 0).take 1) := by
  rw [lastGroup]
  simp only [sextetAt_symbol _ ha, sextetAt_symbol _ hb, bind, Except.bind]
  rw [if_pos trivial, if_neg (not_not.mpr rfl), if_neg (not_not.mpr spare)]
  rfl

/-! ## Texts -/

/-- A whole group in front does not change what a text lacks. -/
theorem pad_cons₄ (a b c d : UInt8) (text : List UInt8) :
    pad (a :: b :: c :: d :: text) = a :: b :: c :: d :: pad text := by
  rw [pad, paddingNeeded]
  have : (a :: b :: c :: d :: text).length % 4 = text.length % 4 := by
    simp only [List.length_cons]
    omega
  rw [this]
  rfl

/-- A group that is not the last one is read on its own. -/
theorem decodeFrom_cons₄ {a b c d : UInt8} {rest : List UInt8} (h : rest ≠ []) :
    decodeFrom offset (a :: b :: c :: d :: rest)
      = (do
        let bytes ← group offset a b c d
        let more ← decodeFrom (offset + 4) rest
        return bytes ++ more) := by
  rw [decodeFrom]
  exact h

/-- Text that was written and filled up is read as the bytes it was written for. -/
theorem decodeFrom_pad_encode (bytes : List UInt8) :
    decodeFrom offset (pad (encode bytes)) = .ok bytes := by
  fun_induction encode bytes generalizing offset with
  | case1 => rfl
  | case2 x =>
      have hx := x.toNat_lt
      show lastGroup offset _ _ filler filler = _
      rw [lastGroup_one offset (by omega) (by omega) (by omega)]
      -- one byte is the first of three, the others being zero
      have triple := tripleBytes_eq x 0 0
      simp only [UInt8.toNat_zero, Nat.zero_div, Nat.add_zero, Nat.zero_mod, Nat.zero_mul] at triple
      rw [triple]
      rfl
  | case3 x y =>
      have hx := x.toNat_lt
      have hy := y.toNat_lt
      show lastGroup offset _ _ _ filler = _
      rw [lastGroup_two offset (by omega) (by omega) (by omega) (by omega)]
      -- two bytes are the first of three, the last one being zero
      have triple := tripleBytes_eq x y 0
      simp only [UInt8.toNat_zero, Nat.zero_div, Nat.add_zero, Nat.zero_mod] at triple
      rw [triple]
      rfl
  | case4 x y z rest ih =>
      have hx := x.toNat_lt
      have hy := y.toNat_lt
      have hz := z.toNat_lt
      rw [pad_cons₄]
      by_cases last : pad (encode rest) = []
      · -- nothing follows, so the four symbols are the last group
        have empty : rest = [] := by
          have read := ih offset
          rw [last] at read
          exact (Except.ok.inj read).symm
        rw [last]
        show lastGroup offset _ _ _ _ = _
        rw [lastGroup_three offset (by omega) (by omega) (by omega) (by omega), tripleBytes_eq,
          empty]
      · -- more groups follow, and they are read for themselves
        rw [decodeFrom_cons₄ offset last,
          group_symbols offset (by omega) (by omega) (by omega) (by omega), tripleBytes_eq, ih]
        rfl

/-- **Base64 round trip**: bytes that were written and filled up are read back. -/
theorem decode_pad_encode (bytes : List UInt8) : decode (pad (encode bytes)) = .ok bytes :=
  decodeFrom_pad_encode 0 bytes

/-- Only for no bytes nothing is written. -/
theorem encode_eq_nil_iff (bytes : List UInt8) : encode bytes = [] ↔ bytes = [] := by
  constructor
  · intro h
    have read := decode_pad_encode bytes
    rw [h] at read
    exact (Except.ok.inj read).symm
  · intro h
    rw [h]
    rfl

/-! ## Texts that are cut off -/

/-- One symbol alone stands for no byte. -/
theorem lastGroup_lone (a : UInt8) (got : List UInt8) :
    lastGroup offset a filler filler filler ≠ .ok got := by
  intro h
  rw [lastGroup] at h
  cases first : sextetAt offset a with
  | error cause =>
      rw [first] at h
      cases h
  | ok v =>
      -- the sign that fills up the group is no symbol
      have second : sextetAt (offset + 1) filler = .error (.symbol filler (offset + 1)) := rfl
      rw [first, second] at h
      cases h

/-- The first two symbols of a group stand for its first byte, or for nothing. -/
theorem eq_of_lastGroup_two (x y : UInt8) {got : List UInt8}
    (h : lastGroup offset (symbol (x.toNat / 4)) (symbol (x.toNat % 4 * 16 + y.toNat / 16)) filler
      filler = .ok got) : got = [x] := by
  have hx := x.toNat_lt
  have hy := y.toNat_lt
  have ha : x.toNat / 4 < 64 := by omega
  have hb : x.toNat % 4 * 16 + y.toNat / 16 < 64 := by omega
  by_cases spare : (x.toNat % 4 * 16 + y.toNat / 16) % 16 = 0
  · rw [lastGroup_one offset ha hb spare] at h
    rw [← Except.ok.inj h]
    exact congrArg (List.take 1) (tripleBytes_eq x y 0)
  · rw [lastGroup] at h
    simp only [sextetAt_symbol _ ha, sextetAt_symbol _ hb, bind, Except.bind] at h
    rw [if_pos trivial, if_neg (not_not.mpr rfl), if_pos spare] at h
    cases h

/-- The first three symbols of a group stand for its first two bytes, or for nothing. -/
theorem eq_of_lastGroup_three (x y z : UInt8) {got : List UInt8}
    (h : lastGroup offset (symbol (x.toNat / 4)) (symbol (x.toNat % 4 * 16 + y.toNat / 16))
      (symbol (y.toNat % 16 * 4 + z.toNat / 64)) filler = .ok got) : got = [x, y] := by
  have hx := x.toNat_lt
  have hy := y.toNat_lt
  have hz := z.toNat_lt
  have ha : x.toNat / 4 < 64 := by omega
  have hb : x.toNat % 4 * 16 + y.toNat / 16 < 64 := by omega
  have hc : y.toNat % 16 * 4 + z.toNat / 64 < 64 := by omega
  by_cases spare : (y.toNat % 16 * 4 + z.toNat / 64) % 4 = 0
  · rw [lastGroup_two offset ha hb hc spare] at h
    rw [← Except.ok.inj h]
    exact congrArg (List.take 2) (tripleBytes_eq x y z)
  · rw [lastGroup] at h
    simp only [sextetAt_symbol _ ha, sextetAt_symbol _ hb, sextetAt_symbol _ hc, bind,
      Except.bind] at h
    rw [if_neg (symbol_ne_filler _ hc), if_pos trivial, if_pos spare] at h
    cases h

theorem prefix_of_decodeFrom_whole (bytes : List UInt8) {text got : List UInt8}
    (whole : text = encode bytes) (h : decodeFrom offset (pad text) = .ok got) : got <+: bytes := by
  rw [whole, decodeFrom_pad_encode] at h
  obtain rfl := Except.ok.inj h
  exact List.prefix_refl bytes

theorem prefix_of_decodeFrom_nil {bytes got : List UInt8}
    (h : decodeFrom offset (pad []) = .ok got) : got <+: bytes := by
  obtain rfl := Except.ok.inj h
  exact List.nil_prefix

/-- **Cut texts**: the beginning of a text that was written stands for a beginning of its bytes, or
for nothing. -/
theorem prefix_of_decodeFrom_take {bytes got : List UInt8} {count : Nat}
    (h : decodeFrom offset (pad ((encode bytes).take count)) = .ok got) : got <+: bytes := by
  fun_induction encode bytes generalizing offset count got with
  | case1 => exact prefix_of_decodeFrom_whole offset [] List.take_nil h
  | case2 x =>
      rcases count with _ | _ | count
      · exact prefix_of_decodeFrom_nil offset h
      · exact (lastGroup_lone offset _ got h).elim
      · exact prefix_of_decodeFrom_whole offset [x]
          (List.take_of_length_le (Nat.le_add_left 2 count)) h
  | case3 x y =>
      rcases count with _ | _ | _ | count
      · exact prefix_of_decodeFrom_nil offset h
      · exact (lastGroup_lone offset _ got h).elim
      · rw [eq_of_lastGroup_two offset x y h]
        exact ⟨[y], rfl⟩
      · exact prefix_of_decodeFrom_whole offset [x, y]
          (List.take_of_length_le (Nat.le_add_left 3 count)) h
  | case4 x y z rest ih =>
      have hx := x.toNat_lt
      have hy := y.toNat_lt
      have hz := z.toNat_lt
      rcases count with _ | _ | _ | _ | count
      · exact prefix_of_decodeFrom_nil offset h
      · exact (lastGroup_lone offset _ got h).elim
      · rw [eq_of_lastGroup_two offset x y h]
        exact ⟨y :: z :: rest, rfl⟩
      · rw [eq_of_lastGroup_three offset x y z h]
        exact ⟨z :: rest, rfl⟩
      · -- a whole group is left, and the cut is behind it
        rw [List.take_succ_cons, List.take_succ_cons, List.take_succ_cons, List.take_succ_cons,
          pad_cons₄] at h
        by_cases last : pad ((encode rest).take count) = []
        · rw [last, decodeFrom,
            lastGroup_three offset (by omega) (by omega) (by omega) (by omega), tripleBytes_eq] at h
          rw [← Except.ok.inj h]
          exact ⟨rest, rfl⟩
        · rw [decodeFrom_cons₄ offset last,
            group_symbols offset (by omega) (by omega) (by omega) (by omega), tripleBytes_eq] at h
          cases more : decodeFrom (offset + 4) (pad ((encode rest).take count)) with
          | error cause =>
              rw [more] at h
              cases h
          | ok later =>
              rw [more] at h
              rw [← Except.ok.inj h]
              exact (List.prefix_append_right_inj [x, y, z]).mpr (ih (offset + 4) more)

/-- What is read from the beginning of an encoding is the beginning of its bytes. -/
theorem prefix_of_decode_pad {bytes text got : List UInt8} (cut : text <+: encode bytes)
    (h : decode (pad text) = .ok got) : got <+: bytes := by
  rw [List.prefix_iff_eq_take.mp cut] at h
  exact prefix_of_decodeFrom_take 0 h

/-! ## Texts that are filled up in part -/

/-- A last group may be filled up in part before it is filled up. -/
theorem pad_append_filler {text : List UInt8} {fill : Nat}
    (h : fill ≤ paddingNeeded text.length) :
    pad (text ++ List.replicate fill filler) = pad text := by
  have lacking : fill + paddingNeeded (text.length + fill) = paddingNeeded text.length := by
    simp only [paddingNeeded] at h ⊢
    omega
  rw [pad, pad, List.length_append, List.length_replicate, List.append_assoc,
    List.replicate_append_replicate, lacking]

/-! ## The alphabet as characters -/

/-- The characters of a text: letters and digits of ASCII, `+` and `/`. -/
def isLetter (c : Char) : Bool := c.isAlphanum || c == '+' || c == '/'

/-- A character that is found to lie between two others does. -/
theorem between_of_and (low high : Char) {c : Char}
    (h : (decide (c.val ≥ low.val) && decide (c.val ≤ high.val)) = true) :
    low.toNat ≤ c.toNat ∧ c.toNat ≤ high.toNat := by
  rw [Bool.and_eq_true, decide_eq_true_eq, decide_eq_true_eq] at h
  exact h

/-- Where in ASCII the characters of a text lie: past all controls and the space, and beside the
signs `;` and `=`. -/
theorem toNat_of_isLetter {c : Char} (h : isLetter c = true) :
    43 ≤ c.toNat ∧ c.toNat ≤ 122 ∧ c.toNat ≠ 59 ∧ c.toNat ≠ 61 := by
  -- the runs of capital and small letters and of digits, and two signs
  have runs : (((65 ≤ c.toNat ∧ c.toNat ≤ 90) ∨ (97 ≤ c.toNat ∧ c.toNat ≤ 122)) ∨
      (48 ≤ c.toNat ∧ c.toNat ≤ 57)) ∨ c = '+' ∨ c = '/' := by
    rw [isLetter, Bool.or_eq_true, Bool.or_eq_true, beq_iff_eq, beq_iff_eq, or_assoc] at h
    refine h.imp_left fun alphanum => ?_
    have classes : ((c.isUpper || c.isLower) || c.isDigit) = true := alphanum
    rw [Bool.or_eq_true, Bool.or_eq_true] at classes
    rcases classes with (upper | lower) | digit
    · exact .inl (.inl (of_decide_eq_true upper))
    · exact .inl (.inr (between_of_and 'a' 'z' lower))
    · exact .inr (between_of_and '0' '9' digit)
  rcases runs with ((upper | lower) | digit) | rfl | rfl
  · omega
  · omega
  · omega
  · decide
  · decide

/-- The character of a symbol is one of the alphabet. -/
theorem isLetter_symbol : ∀ v < 64, isLetter (Char.ofNat (symbol v).toNat) = true := by
  decide

/-- The character of a symbol is stored as that symbol. -/
theorem utf8EncodeChar_symbol :
    ∀ v < 64, String.utf8EncodeChar (Char.ofNat (symbol v).toNat) = [symbol v] := by
  decide

end PenDrawing.Base64
