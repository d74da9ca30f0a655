import PenDrawing.Proofs.Zlib.Bounded
import PenDrawing.Zlib.Stored
import Mathlib.Algebra.Group.Nat.Defs

/-!
# Streams of stored blocks

Every byte list has a stream: what `store` writes is a sound stream, and it stands for the bytes it
was written for (`inflate_store`).  So there is a way to compress bytes from which they can always
be got back, which is all that is asked of one (`Compresses`).
-/

namespace PenDrawing.Zlib

/-- A way to compress bytes, in which their stream always stands for them again. -/
def Compresses (compress : List UInt8 → List UInt8) : Prop :=
  ∀ bytes, inflate (compress bytes) = .ok bytes

/-! ## Numbers of whole bytes -/

open Reader

/-- A reader that takes something hands the rest on to the next one. -/
theorem bind_of_eq_ok {α β : Type} {r : Reader α} {f : α → Reader β} {bits mid : Bits} {a : α}
    (h : r bits = .ok (a, mid)) : (r >>= f) bits = f a mid := by
  show (r bits).bind (fun p => f p.1 p.2) = _
  rw [h]
  rfl

/-- A number that is read in two parts: the low bits first. -/
theorem number_append {m n low high : Nat} {bits mid rest : Bits}
    (first : number m bits = .ok (low, mid)) (second : number n mid = .ok (high, rest)) :
    number (m + n) bits = .ok (low + 2 ^ m * high, rest) := by
  induction m generalizing low bits with
  | zero =>
      obtain ⟨rfl, rfl⟩ := Prod.mk.inj (Except.ok.inj first)
      rw [Nat.zero_add, second, Nat.zero_add, Nat.pow_zero, Nat.one_mul]
  | succ m ih =>
      -- one bit is taken, and the others of the low part after it
      obtain ⟨b, next, taken, first⟩ := bind_eq_ok first
      obtain ⟨l, mid', lower, last⟩ := bind_eq_ok first
      obtain ⟨rfl, rfl⟩ := Prod.mk.inj (Except.ok.inj last)
      rw [Nat.add_right_comm]
      show (bit >>= fun b => number (m + n) >>= fun k => pure (b.toNat + 2 * k)) bits = _
      rw [bind_of_eq_ok taken, bind_of_eq_ok (ih lower)]
      show Except.ok (b.toNat + 2 * (l + 2 ^ m * high), rest) = _
      rw [Nat.pow_succ, Nat.mul_add, Nat.add_assoc, Nat.mul_comm (2 ^ m) 2, Nat.mul_assoc]

theorem align_ofBytes (bytes : List UInt8) :
    align (.ofBytes bytes) = .ok ((), .ofBytes bytes) := rfl

/-- Eight bits from the start of a byte are that byte. -/
theorem number_byte (b : UInt8) (bytes : List UInt8) :
    number 8 (.ofBytes (b :: bytes)) = .ok (b.toNat, .ofBytes bytes) := by
  have hb := b.toNat_lt
  show Except.ok ((b.toNat.testBit 0).toNat + 2 * ((b.toNat.testBit 1).toNat + 2 *
    ((b.toNat.testBit 2).toNat + 2 * ((b.toNat.testBit 3).toNat + 2 *
    ((b.toNat.testBit 4).toNat + 2 * ((b.toNat.testBit 5).toNat + 2 *
    ((b.toNat.testBit 6).toNat + 2 * ((b.toNat.testBit 7).toNat + 2 * 0))))))),
    Bits.ofBytes bytes) = _
  simp only [Nat.toNat_testBit]
  congr 2
  omega

/-- Sixteen bits from the start of a byte are a number of two bytes. -/
theorem number_lowFirst {n : Nat} (h : n ≤ storedLimit) (bytes : List UInt8) :
    number 16 (.ofBytes (lowFirst n ++ bytes)) = .ok (n, .ofBytes bytes) := by
  have read := number_append (number_byte (UInt8.ofNat (n % 256)) (UInt8.ofNat (n / 256 % 256) ::
    bytes)) (number_byte (UInt8.ofNat (n / 256 % 256)) bytes)
  rw [UInt8.toNat_ofNat', UInt8.toNat_ofNat'] at read
  simp only [storedLimit] at h
  rw [show n % 256 % 2 ^ 8 + 2 ^ 8 * (n / 256 % 256 % 2 ^ 8) = n by omega] at read
  exact read

/-! ## Blocks -/

/-- What stands before the bytes of a stored block says that it is one, and how long. -/
theorem readBlock_storedBlock (final : Bool) {bytes : List UInt8}
    (h : bytes.length ≤ storedLimit) (rest : List UInt8) :
    readBlock (.ofBytes (storedBlock final bytes ++ rest))
      = .ok ((final, .stored bytes.length), .ofBytes (bytes ++ rest)) := by
  have counted := number_lowFirst h (lowFirst (storedLimit - bytes.length) ++ (bytes ++ rest))
  have checked := number_lowFirst (Nat.sub_le storedLimit bytes.length) (bytes ++ rest)
  rw [storedBlock]
  rw [List.append_assoc, List.append_assoc, List.cons_append]
  generalize lowFirst bytes.length ++ (lowFirst (storedLimit - bytes.length) ++ (bytes ++ rest))
    = tail at counted
  -- three bits of the first byte are taken, and the other five are padding
  have first : bit (.ofBytes ((if final then 1 else 0) :: tail))
      = .ok (final, ⟨List.replicate 7 false, tail⟩) := by
    cases final <;> rfl
  have kind : number 2 ⟨List.replicate 7 false, tail⟩
      = .ok (0, ⟨List.replicate 5 false, tail⟩) := rfl
  have aligned : align ⟨List.replicate 5 false, tail⟩ = .ok ((), .ofBytes tail) := rfl
  rw [readBlock]
  rw [bind_of_eq_ok first, bind_of_eq_ok kind]
  show (align >>= fun _ => number 16 >>= fun count => number 16 >>= fun complement =>
    if count + complement = 65535 then pure (final, Block.stored count) else corrupt) _ = _
  rw [bind_of_eq_ok aligned, bind_of_eq_ok counted, bind_of_eq_ok checked]
  -- the two counts are complements
  have whole : bytes.length + (storedLimit - bytes.length) = 65535 := Nat.add_sub_cancel' h
  rw [if_pos whole]
  rfl

/-- The bytes of a stored block come out as they are. -/
theorem copyStored_append (bytes rest : List UInt8) (out : Array UInt8) :
    copyStored none bytes.length (bytes ++ rest) out
      = ((out.toList ++ bytes).toArray, .ok (.ofBytes rest)) := by
  induction bytes generalizing out with
  | nil =>
      rw [List.append_nil]
      rfl
  | cons b bytes ih =>
      show copyStored none bytes.length (bytes ++ rest) (out.push b) = _
      rw [ih, Array.toList_push, List.append_assoc]
      rfl

/-- The bytes of all blocks come out, and what follows the last block is left. -/
theorem copyBlocks_storedBlocks (bytes rest : List UInt8) (out : Array UInt8) :
    copyBlocks none (.ofBytes (storedBlocks bytes ++ rest)) out
      = ((out.toList ++ bytes).toArray, .ok (.ofBytes rest)) := by
  fun_induction storedBlocks bytes generalizing out with
  | case1 bytes last =>
      rw [copyBlocks_eq, readBlock_storedBlock true last]
      show (copyStored none bytes.length (bytes ++ rest) out).andThen _ = _
      rw [copyStored_append]
      rfl
  | case2 bytes more ih =>
      -- a block that is not the last one is as long as it can be
      have full : (bytes.take storedLimit).length = storedLimit := by
        rw [List.length_take]
        omega
      rw [copyBlocks_eq, List.append_assoc,
        readBlock_storedBlock false (Nat.le_of_eq full)]
      show (copyStored none (bytes.take storedLimit).length (_ ++ _) out).andThen _ = _
      rw [copyStored_append]
      show copyBlocks none _ _ = _
      rw [ih, List.append_assoc, List.take_append_drop]

/-! ## Whole streams -/

/-- Both sums stay below the modulus. -/
theorem Checksum.ofBytes_lt (out : Array UInt8) :
    (Checksum.ofBytes out).bytes < modulus ∧ (Checksum.ofBytes out).sums < modulus := by
  have positive : 0 < modulus := by decide
  have add_lt : ∀ (sum : Checksum) (b : UInt8),
      (sum.add b).bytes < modulus ∧ (sum.add b).sums < modulus :=
    fun _ _ => ⟨Nat.mod_lt _ positive, Nat.mod_lt _ positive⟩
  -- each byte leaves the sums reduced
  have fold : ∀ (bytes : List UInt8) (sum : Checksum),
      sum.bytes < modulus ∧ sum.sums < modulus →
      (bytes.foldl add sum).bytes < modulus ∧ (bytes.foldl add sum).sums < modulus := by
    intro bytes
    induction bytes with
    | nil => exact fun _ h => h
    | cons b bytes ih => exact fun sum _ => ih (sum.add b) (add_lt sum b)
  rw [Checksum.ofBytes]
  rw [← Array.foldl_toList]
  exact fold out.toList start (by decide)

/-- The checksum that was written behind the bytes is the one they have. -/
theorem readChecksum_checksumBytes (out : Array UInt8) :
    readChecksum out (.ofBytes (checksumBytes (Checksum.ofBytes out)))
      = .ok ((), .ofBytes []) := by
  obtain ⟨bytes_lt, sums_lt⟩ := Checksum.ofBytes_lt out
  rw [readChecksum, checksumBytes]
  rw [bind_of_eq_ok (align_ofBytes _), bind_of_eq_ok (number_byte _ _), bind_of_eq_ok (number_byte _ _),
    bind_of_eq_ok (number_byte _ _), bind_of_eq_ok (number_byte _ _)]
  simp only [UInt8.toNat_ofNat']
  rw [if_pos]
  · rfl
  · simp only [Checksum.toNat, Checksum.modulus] at bytes_lt sums_lt ⊢
    omega

/-- The header that is written is read. -/
theorem readHeader_storedHeader (rest : List UInt8) :
    readHeader (.ofBytes (storedHeader ++ rest)) = .ok ((), .ofBytes rest) := by
  rw [readHeader]
  rw [show storedHeader ++ rest = 120 :: 1 :: rest from rfl,
    bind_of_eq_ok (number_byte 120 (1 :: rest)), bind_of_eq_ok (number_byte 1 rest),
    if_pos (by decide)]
  rfl

/-- **Stored streams are sound**: what was written for bytes stands for them. -/
theorem inflate_store (bytes : List UInt8) : inflate (store bytes) = .ok bytes := by
  have whole : decompress none (store bytes) = (bytes.toArray, .ok ()) := by
    rw [decompress_eq, store, List.append_assoc, readHeader_storedHeader, Output.andThen_ok,
      copyBlocks_storedBlocks, Output.andThen_ok, List.nil_append, readChecksum_checksumBytes,
      Output.andThen_ok]
  rw [inflate]
  rw [whole]

/-- Storing compresses: what is stored inflates to itself. -/
theorem compresses_store : Compresses store := inflate_store

/-- No stream is empty. -/
theorem Compresses.ne_nil {compress : List UInt8 → List UInt8} (sound : Compresses compress)
    (bytes : List UInt8) : compress bytes ≠ [] := by
  intro empty
  have stands := sound bytes
  rw [empty, show inflate [] = .error .incomplete from rfl] at stands
  cases stands

end PenDrawing.Zlib
