import PenDrawing.Zlib.Checksum

/-!
# Writing a stream of stored blocks

A stream may hold its bytes as they are, in blocks of at most 65535 bytes. **`store`** writes
such a stream; every byte list has one.
-/

namespace PenDrawing.Zlib

/-- The most bytes that a stored block holds. -/
def storedLimit : Nat := 65535

/-- The two bytes of a number, the low byte first. -/
def lowFirst (n : Nat) : List UInt8 := [UInt8.ofNat (n % 256), UInt8.ofNat (n / 256 % 256)]

/-- A stored block: whether it is the last one, its length, the length's complement, its bytes. -/
def storedBlock (final : Bool) (bytes : List UInt8) : List UInt8 :=
  (if final then 1 else 0) :: lowFirst bytes.length ++ lowFirst (storedLimit - bytes.length) ++
    bytes

/-- The blocks of a byte list, each but the last one full. -/
def storedBlocks (bytes : List UInt8) : List UInt8 :=
  if bytes.length ≤ storedLimit then storedBlock true bytes
  else storedBlock false (bytes.take storedLimit) ++ storedBlocks (bytes.drop storedLimit)
termination_by bytes.length
decreasing_by
  simp only [List.length_drop, storedLimit] at *
  omega

/-- The four bytes of a checksum, the high byte first. -/
def checksumBytes (sum : Checksum) : List UInt8 :=
  [UInt8.ofNat (sum.sums / 256), UInt8.ofNat (sum.sums % 256), UInt8.ofNat (sum.bytes / 256),
    UInt8.ofNat (sum.bytes % 256)]

/-- The header of a stream with the largest window. -/
def storedHeader : List UInt8 := [120, 1]

/-- A stream that stands for the bytes. -/
def store (bytes : List UInt8) : List UInt8 :=
  storedHeader ++ storedBlocks bytes ++ checksumBytes (Checksum.ofBytes bytes.toArray)

end PenDrawing.Zlib
