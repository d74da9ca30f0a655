/-!
# The checksum of a stream

A compressed stream ends with two sums over the bytes it stands for: of the bytes, counted from
one, and of the first sum at each byte, both modulo 65521.
-/

namespace PenDrawing.Zlib

/-- The two sums of a checksum. -/
structure Checksum where
  bytes : Nat
  sums : Nat
deriving DecidableEq, Repr

namespace Checksum

/-- The largest prime below 65536. -/
def modulus : Nat := 65521

/-- The sums over no bytes. -/
def start : Checksum := ⟨1, 0⟩

/-- The sums with one more byte. -/
def add (sum : Checksum) (b : UInt8) : Checksum :=
  let bytes := (sum.bytes + b.toNat) % modulus
  ⟨bytes, (sum.sums + bytes) % modulus⟩

/-- The sums over bytes. -/
def ofBytes (bytes : Array UInt8) : Checksum := bytes.foldl add start

/-- The checksum as one number of four bytes. -/
def toNat (sum : Checksum) : Nat := sum.sums * 65536 + sum.bytes

end Checksum

end PenDrawing.Zlib
