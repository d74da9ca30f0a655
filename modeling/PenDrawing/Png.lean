import PenDrawing.Surface.Raster
import PenDrawing.Zlib.Stored

/-!
# Pictures as files

A PNG file is a signature and then chunks: a header with the size of the picture, its pixels as
one compressed stream, and an end. Each chunk carries its length and a checksum of its own.

* **`crc`** is the checksum of a chunk: the remainder of its bits by a polynomial.
* **`encode`** is the file of a raster.
-/

namespace PenDrawing.Png

/-- The four bytes of a number, the high byte first. -/
def highFirst (n : Nat) : List UInt8 :=
  [UInt8.ofNat (n / 16777216), UInt8.ofNat (n / 65536), UInt8.ofNat (n / 256), UInt8.ofNat n]

/-! ## Chunks -/

/-- The polynomial that checksums are remainders by, its highest power in the lowest bit. -/
def polynomial : UInt32 := 0xEDB88320

/-- The remainder with one more bit taken in. -/
def crcBit (remainder : UInt32) : UInt32 :=
  if remainder &&& 1 = 1 then (remainder >>> 1) ^^^ polynomial else remainder >>> 1

/-- The remainder with one more byte taken in. -/
def crcByte (remainder : UInt32) (b : UInt8) : UInt32 :=
  Nat.repeat crcBit 8 (remainder ^^^ b.toUInt32)

/-- The checksum of bytes. -/
def crc (bytes : List UInt8) : UInt32 := bytes.foldl crcByte 0xFFFFFFFF ^^^ 0xFFFFFFFF

/-- A chunk: its length, its name, what it holds and its checksum. -/
def chunk (name : String) (content : List UInt8) : List UInt8 :=
  let body := name.toUTF8.toList ++ content
  highFirst content.length ++ body ++ highFirst (crc body).toNat

/-! ## The file -/

/-- The first bytes of every PNG file. -/
def signature : List UInt8 := [0x89, 0x50, 0x4E, 0x47, 0x0D, 0x0A, 0x1A, 0x0A]

/-- The header: width, height, eight bits for each of four channels, and no interlacing. -/
def header (raster : Raster) : List UInt8 :=
  highFirst raster.width ++ highFirst raster.height ++ [8, 6, 0, 0, 0]

/-- A row of pixels, each byte as it is. -/
def row (pixels : List Pixel) : List UInt8 :=
  0 :: pixels.flatMap fun p => [p.red, p.green, p.blue, p.alpha]

/-- The file of a raster. -/
def encode (raster : Raster) : List UInt8 :=
  let rows := (List.range raster.height).flatMap fun y => row (raster.row y)
  signature ++ chunk "IHDR" (header raster) ++ chunk "IDAT" (Zlib.store rows) ++ chunk "IEND" []

end PenDrawing.Png
