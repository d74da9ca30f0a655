import PenDrawing.Zlib.Checksum
import PenDrawing.Zlib.Huffman

/-!
# Reading a compressed stream

A stream is a header of two bytes, blocks, and a checksum. A block is a run of stored bytes, or
symbols of two codes that stand for bytes and for matches, which repeat what came out before.
What lies before the first byte counts as zeros.

* **`decompress`** reads a stream and gives what came out of it, whether or not the stream holds
  out to its end; it can be told to let out no more than a number of bytes.
* **`inflate`** is the whole of what a stream stands for.
* **`inflateUpTo`** is no more than its first bytes, and forgives a stream that breaks off, or is
  damaged far enough, behind them.
-/

namespace PenDrawing.Zlib

/-- Why a stream cannot be read. -/
inductive Error where
  /-- The stream does not follow the format. -/
  | corrupt
  /-- The stream breaks off before its end. -/
  | incomplete
deriving DecidableEq, Repr

/-- The text that reports an error. -/
def Error.message : Error → String
  | .corrupt => "corrupt deflate stream"
  | .incomplete => "incomplete deflate stream"

/-- The bytes that are out, and how reading went on: to a value, or to a stop. -/
abbrev Output (α : Type) := Array UInt8 × Except Halt α

/-! ## Blocks -/

/-- What a block holds: a count of stored bytes, or symbols of two codes. -/
inductive Block where
  | stored (count : Nat)
  | coded (literals distances : Code)

/-- How many symbols the code of bytes and lengths may have. -/
def literalLimit : Nat := 286

/-- How many symbols the code of distances may have. -/
def distanceLimit : Nat := 30

/-- The order in which the lengths of the code of lengths are sent. -/
def lengthOrder : List Nat := [16, 17, 18, 0, 8, 7, 9, 6, 10, 5, 11, 4, 12, 3, 13, 2, 14, 1, 15]

/-- The code that a block which sends none uses for bytes and lengths. -/
def fixedLiterals : Option Code :=
  Code.ofLengths (List.replicate 144 8 ++ List.replicate 112 9 ++ List.replicate 24 7 ++
    List.replicate 8 8)

/-- The code that a block which sends none uses for distances. -/
def fixedDistances : Option Code := Code.ofLengths (List.replicate 32 5)

/-- A code that came as lengths. Ways without a symbol are let pass only in a code of one symbol or
none. -/
def codeOf (lengths : List Nat) : Option Code :=
  match Code.ofLengths lengths with
  | some code =>
    if code.isComplete then some code
    else if lengths.countP (· ≠ 0) ≤ 1 then some code.padded
    else none
  | none => none

/-- The code of lengths that came as lengths; it has a symbol on every way. -/
def lengthCodeOf (lengths : List Nat) : Option Code :=
  match Code.ofLengths lengths with
  | some code => if code.isComplete then some code else none
  | none => none

/-- Takes a code that must be there. -/
def expect (code : Option Code) : Reader Code :=
  match code with
  | some code => pure code
  | none => Reader.corrupt

/-- Takes numbers of three bits. -/
def readTriples : (count : Nat) → Reader (List Nat)
  | 0 => pure []
  | count + 1 => do
    let n ← Reader.number 3
    let more ← readTriples count
    return n :: more

/-- The lengths that one symbol adds, before those there are already (the latest one first): a
length itself, the latest one again, or a run of zeros. -/
def readLengthRun (symbol : Nat) (latest : Option Nat) : Reader (List Nat) :=
  if symbol < 16 then pure [symbol]
  else if symbol = 16 then
    match latest with
    | none => Reader.corrupt
    | some length => return List.replicate (3 + (← Reader.number 2)) length
  else if symbol = 17 then return List.replicate (3 + (← Reader.number 3)) 0
  else return List.replicate (11 + (← Reader.number 7)) 0

theorem shrinks_readLengthRun (symbol : Nat) (latest : Option Nat) :
    Reader.Shrinks (readLengthRun symbol latest) := by
  refine (Reader.shrinks_pure _).ite (Reader.Shrinks.ite ?_ (Reader.Shrinks.ite ?_ ?_))
  · cases latest with
    | none => exact Reader.shrinks_corrupt
    | some length => exact (Reader.shrinks_number 2).bind fun _ => Reader.shrinks_pure _
  · exact (Reader.shrinks_number 3).bind fun _ => Reader.shrinks_pure _
  · exact (Reader.shrinks_number 7).bind fun _ => Reader.shrinks_pure _

/-- Takes lengths until `count` of them are there; the latest one stands first. -/
def readLengths (code : Code) (count : Nat) (lengths : List Nat) (bits : Bits) :
    Except Halt (List Nat × Bits) :=
  if lengths.length ≥ count then .ok (lengths, bits)
  else
    match _h : code.read bits with
    | .error halt => .error halt
    | .ok (symbol, mid) =>
      match _hrun : readLengthRun symbol lengths.head? mid with
      | .error halt => .error halt
      | .ok (run, rest) => readLengths code count (run ++ lengths) rest
termination_by bits.size
decreasing_by
  have := Code.size_read_lt _h
  have := shrinks_readLengthRun symbol lengths.head? mid rest run _hrun
  omega

theorem shrinks_readLengths (code : Code) (count : Nat) (lengths : List Nat) :
    Reader.Shrinks (readLengths code count lengths) := by
  intro bits rest result h
  fun_induction readLengths code count lengths bits with
  | case1 =>
    simp only [Except.ok.injEq, Prod.mk.injEq] at h
    simp [h.2]
  | case2 => simp at h
  | case3 => simp at h
  | case4 lengths bits _ symbol mid read run rest' read' ih =>
    have := Code.size_read_lt read
    have := shrinks_readLengthRun symbol lengths.head? mid rest' run read'
    have := ih h
    omega

/-- Takes the two codes that a block sends before its symbols. -/
def readCodes : Reader Block := do
  let literalCount := 257 + (← Reader.number 5)
  let distanceCount := 1 + (← Reader.number 5)
  let lengthCount := 4 + (← Reader.number 4)
  if literalCount > literalLimit ∨ distanceCount > distanceLimit then Reader.corrupt
  else
    let sent ← readTriples lengthCount
    let placed := (List.range 19).map fun symbol =>
      (lengthOrder.zip sent).lookup symbol |>.getD 0
    let lengthCode ← expect (lengthCodeOf placed)
    let latestFirst ← readLengths lengthCode (literalCount + distanceCount) []
    if latestFirst.length > literalCount + distanceCount then Reader.corrupt
    else
      let lengths := latestFirst.reverse
      let literals ← expect (codeOf (lengths.take literalCount))
      let distances ← expect (codeOf (lengths.drop literalCount))
      return .coded literals distances

/-- Takes what stands before the contents of a block, and whether the block is the last one. -/
def readBlock : Reader (Bool × Block) := do
  let final ← Reader.bit
  let kind ← Reader.number 2
  match kind with
  | 0 =>
    Reader.align
    let count ← Reader.number 16
    let complement ← Reader.number 16
    if count + complement = 65535 then return (final, .stored count) else Reader.corrupt
  | 1 =>
    let literals ← expect fixedLiterals
    let distances ← expect fixedDistances
    return (final, .coded literals distances)
  | 2 => return (final, ← readCodes)
  | _ => Reader.corrupt

/-! ### Block headers do not add bits -/

theorem shrinks_expect (code : Option Code) : Reader.Shrinks (expect code) := by
  cases code with
  | none => exact Reader.shrinks_corrupt
  | some code => exact Reader.shrinks_pure code

theorem shrinks_readTriples (count : Nat) : Reader.Shrinks (readTriples count) := by
  induction count with
  | zero => exact Reader.shrinks_pure []
  | succ count ih =>
    exact (Reader.shrinks_number 3).bind fun _ => ih.bind fun _ => Reader.shrinks_pure _

theorem shrinks_readCodes : Reader.Shrinks readCodes :=
  (Reader.shrinks_number 5).bind fun _ => (Reader.shrinks_number 5).bind fun _ =>
    (Reader.shrinks_number 4).bind fun _ => Reader.shrinks_corrupt.ite <|
      (shrinks_readTriples _).bind fun _ => (shrinks_expect _).bind fun _ =>
        (shrinks_readLengths _ _ _).bind fun _ => Reader.shrinks_corrupt.ite <|
          (shrinks_expect _).bind fun _ => (shrinks_expect _).bind fun _ =>
            Reader.shrinks_pure _

/-- What stands before the contents of a block takes at least one bit. -/
theorem size_readBlock_lt {bits rest : Bits} {block : Bool × Block}
    (h : readBlock bits = .ok (block, rest)) : rest.size < bits.size := by
  obtain ⟨final, mid, first, next⟩ := Reader.bind_eq_ok h
  have one_bit := Reader.size_bit first
  have : rest.size ≤ mid.size := by
    refine ((Reader.shrinks_number 2).bind fun kind => ?_) mid rest block next
    split
    · exact Reader.shrinks_align.bind fun _ => (Reader.shrinks_number 16).bind fun _ =>
        (Reader.shrinks_number 16).bind fun _ =>
          (Reader.shrinks_pure _).ite Reader.shrinks_corrupt
    · exact (shrinks_expect _).bind fun _ => (shrinks_expect _).bind fun _ =>
        Reader.shrinks_pure _
    · exact shrinks_readCodes.bind fun _ => Reader.shrinks_pure _
    · exact Reader.shrinks_corrupt
  omega

/-! ## Tokens -/

/-- What the symbols of a block stand for. -/
inductive Token where
  /-- A byte comes out. -/
  | byte (b : UInt8)
  /-- The `length` bytes come out again that began to come out `distance` bytes ago. -/
  | copy (length distance : Nat)
  /-- The block ends. -/
  | finish

/-- The symbol that ends a block. -/
def finishSymbol : Nat := 256

/-- The least length of each length symbol, and how many bits add to it. -/
def lengthBases : List (Nat × Nat) :=
  [(3, 0), (4, 0), (5, 0), (6, 0), (7, 0), (8, 0), (9, 0), (10, 0), (11, 1), (13, 1), (15, 1),
    (17, 1), (19, 2), (23, 2), (27, 2), (31, 2), (35, 3), (43, 3), (51, 3), (59, 3), (67, 4),
    (83, 4), (99, 4), (115, 4), (131, 5), (163, 5), (195, 5), (227, 5), (258, 0)]

/-- The least distance of each distance symbol, and how many bits add to it. -/
def distanceBases : List (Nat × Nat) :=
  [(1, 0), (2, 0), (3, 0), (4, 0), (5, 1), (7, 1), (9, 2), (13, 2), (17, 3), (25, 3), (33, 4),
    (49, 4), (65, 5), (97, 5), (129, 6), (193, 6), (257, 7), (385, 7), (513, 8), (769, 8),
    (1025, 9), (1537, 9), (2049, 10), (3073, 10), (4097, 11), (6145, 11), (8193, 12),
    (12289, 12), (16385, 13), (24577, 13)]

/-- Takes the bits that add to the base of a symbol; a symbol without a base is not allowed. -/
def readFromBase (bases : List (Nat × Nat)) (symbol : Nat) : Reader Nat :=
  match bases[symbol]? with
  | some (base, extra) => return base + (← Reader.number extra)
  | none => Reader.corrupt

/-- Takes what follows a symbol and belongs to it. -/
def readRest (distances : Code) (symbol : Nat) : Reader Token :=
  if symbol < finishSymbol then pure (.byte (UInt8.ofNat symbol))
  else if symbol = finishSymbol then pure .finish
  else do
    let length ← readFromBase lengthBases (symbol - (finishSymbol + 1))
    let distance ← readFromBase distanceBases (← distances.read)
    return .copy length distance

/-- Takes a token. -/
def readToken (literals distances : Code) : Reader Token := literals.read >>= readRest distances

theorem shrinks_readFromBase (bases : List (Nat × Nat)) (symbol : Nat) :
    Reader.Shrinks (readFromBase bases symbol) := by
  rw [readFromBase]
  split
  · exact (Reader.shrinks_number _).bind fun _ => Reader.shrinks_pure _
  · exact Reader.shrinks_corrupt

theorem shrinks_readRest (distances : Code) (symbol : Nat) :
    Reader.Shrinks (readRest distances symbol) :=
  (Reader.shrinks_pure _).ite <| (Reader.shrinks_pure _).ite <|
    (shrinks_readFromBase _ _).bind fun _ => distances.shrinks_read.bind fun _ =>
      (shrinks_readFromBase _ _).bind fun _ => Reader.shrinks_pure _

/-- A token takes at least one bit. -/
theorem size_readToken_lt {literals distances : Code} {bits rest : Bits} {token : Token}
    (h : readToken literals distances bits = .ok (token, rest)) : rest.size < bits.size := by
  obtain ⟨symbol, mid, first, next⟩ := Reader.bind_eq_ok h
  exact Nat.lt_of_le_of_lt (shrinks_readRest distances symbol mid rest token next)
    (Code.size_read_lt first)

/-! ## Putting bytes out -/

/-- No more bytes may come out. -/
def isFull (hold : Option Nat) (out : Array UInt8) : Bool :=
  match hold with
  | some count => out.size ≥ count
  | none => false

/-- The byte that came out `distance` bytes ago, or zero from before the first one. -/
def lookBack (out : Array UInt8) (distance : Nat) : UInt8 :=
  if distance ≤ out.size then out.getD (out.size - distance) 0 else 0

/-- Puts out `length` bytes, each one the byte that came out `distance` bytes before it. -/
def copyMatch (hold : Option Nat) (distance : Nat) : (length : Nat) → Array UInt8 → Output Unit
  | 0, out => (out, .ok ())
  | length + 1, out =>
    if isFull hold out then (out, .error .held)
    else copyMatch hold distance length (out.push (lookBack out distance))

/-- Puts out `count` bytes of the stream as they are. -/
def copyStored (hold : Option Nat) : (count : Nat) → List UInt8 → Array UInt8 → Output Bits
  | 0, bytes, out => (out, .ok (.ofBytes bytes))
  | _ + 1, [], out => (out, .error .exhausted)
  | count + 1, b :: bytes, out =>
    if isFull hold out then (out, .error .held) else copyStored hold count bytes (out.push b)

/-- Puts out what the symbols of a block stand for, up to the symbol that ends it. -/
def copyTokens (hold : Option Nat) (literals distances : Code) (bits : Bits)
    (out : Array UInt8) : Output Bits :=
  match _h : readToken literals distances bits with
  | .error halt => (out, .error halt)
  | .ok (.finish, rest) => (out, .ok rest)
  | .ok (.byte b, rest) =>
    if isFull hold out then (out, .error .held)
    else copyTokens hold literals distances rest (out.push b)
  | .ok (.copy length distance, rest) =>
    match copyMatch hold distance length out with
    | (out, .error halt) => (out, .error halt)
    | (out, .ok ()) => copyTokens hold literals distances rest out
termination_by bits.size
decreasing_by all_goals exact size_readToken_lt _h

/-- Puts out what a block stands for. -/
def Block.copy (hold : Option Nat) (block : Block) (bits : Bits) (out : Array UInt8) :
    Output Bits :=
  match block with
  | .stored count => copyStored hold count bits.bytes out
  | .coded literals distances => copyTokens hold literals distances bits out

/-! ### Blocks do not add bits -/

/-- Copying stored bytes leaves no more bits than there were. -/
theorem size_copyStored_le {hold : Option Nat} {count : Nat} {bytes : List UInt8}
    {out : Array UInt8} {rest : Bits} (h : (copyStored hold count bytes out).2 = .ok rest) :
    rest.size ≤ 8 * bytes.length := by
  induction count generalizing bytes out with
  | zero =>
    simp only [copyStored, Except.ok.injEq] at h
    simp [← h, Bits.size, Bits.ofBytes]
  | succ count ih =>
    cases bytes with
    | nil => simp [copyStored] at h
    | cons b bytes =>
      simp only [copyStored] at h
      split at h
      · simp at h
      · have := ih h
        simp only [List.length_cons]
        omega

/-- Copying tokens leaves no more bits than there were. -/
theorem size_copyTokens_le {hold : Option Nat} {literals distances : Code} {bits : Bits}
    {out : Array UInt8} {rest : Bits}
    (h : (copyTokens hold literals distances bits out).2 = .ok rest) :
    rest.size ≤ bits.size := by
  fun_induction copyTokens hold literals distances bits out with
  | case1 => simp at h
  | case2 bits out rest' read =>
    have := size_readToken_lt read
    simp only [Except.ok.injEq] at h
    subst h
    omega
  | case3 => simp at h
  | case4 bits out b rest' read _ ih =>
    have := size_readToken_lt read
    have := ih h
    omega
  | case5 => simp at h
  | case6 bits out length distance rest' read out' _ ih =>
    have := size_readToken_lt read
    have := ih h
    omega

/-- Copying a block leaves no more bits than there were. -/
theorem Block.size_copy_le {hold : Option Nat} {block : Block} {bits : Bits}
    {out : Array UInt8} {rest : Bits} (h : (block.copy hold bits out).2 = .ok rest) :
    rest.size ≤ bits.size := by
  cases block with
  | stored count =>
    have := size_copyStored_le h
    simp only [Bits.size] at this ⊢
    omega
  | coded literals distances => exact size_copyTokens_le h

/-! ## Streams -/

/-- Puts out what the blocks stand for, up to the end of the last one. -/
def copyBlocks (hold : Option Nat) (bits : Bits) (out : Array UInt8) : Output Bits :=
  match _h : readBlock bits with
  | .error halt => (out, .error halt)
  | .ok ((final, block), mid) =>
    match _hcopy : block.copy hold mid out with
    | (out, .error halt) => (out, .error halt)
    | (out, .ok rest) => if final then (out, .ok rest) else copyBlocks hold rest out
termination_by bits.size
decreasing_by
  have := size_readBlock_lt _h
  have := Block.size_copy_le (by rw [_hcopy] : (block.copy hold mid _).2 = .ok rest)
  omega

/-- Takes the header of a stream: the method, a window of at most 32768 bytes, no dictionary, and
check bits that make the two bytes a multiple of 31. -/
def readHeader : Reader Unit := do
  let method ← Reader.number 8
  let flags ← Reader.number 8
  if method % 16 = 8 ∧ method / 16 ≤ 7 ∧ (method * 256 + flags) % 31 = 0 ∧
      flags / 32 % 2 = 0 then
    pure ()
  else Reader.corrupt

/-- Takes the checksum at the end of a stream, which must be that of the bytes that came out. -/
def readChecksum (out : Array UInt8) : Reader Unit := do
  Reader.align
  let a ← Reader.number 8
  let b ← Reader.number 8
  let c ← Reader.number 8
  let d ← Reader.number 8
  if ((a * 256 + b) * 256 + c) * 256 + d = (Checksum.ofBytes out).toNat then pure ()
  else Reader.corrupt

/-- Reads a stream: what came out of it, and whether it holds out to its end. With `hold`, the
reading stops where a byte would come out after that many. Bytes after the end do not matter. -/
def decompress (hold : Option Nat) (data : List UInt8) : Output Unit :=
  match readHeader (.ofBytes data) with
  | .error halt => (#[], .error halt)
  | .ok ((), bits) =>
    match copyBlocks hold bits #[] with
    | (out, .error halt) => (out, .error halt)
    | (out, .ok rest) =>
      match readChecksum out rest with
      | .error halt => (out, .error halt)
      | .ok _ => (out, .ok ())

/-- The bytes that a stream stands for. -/
def inflate (data : List UInt8) : Except Error (List UInt8) :=
  match decompress none data with
  | (_, .error .corrupt) => .error .corrupt
  | (_, .error .exhausted) => .error .incomplete
  | (out, .error .held) => .ok out.toList
  | (out, .ok ()) => .ok out.toList

/-- How many bytes come out before anyone looks at them. -/
def window : Nat := 32768

/-- How many bytes of a stream are taken at a time. -/
def portion : Nat := 32768

/-- Reads the first `taken` bytes of a stream, and where `count` bytes are not out by then, one more
portion at a time. -/
def decompressFor (count : Nat) (data : List UInt8) (taken : Nat) : Output Unit :=
  match decompress (some window) (data.take taken) with
  | (out, .error .exhausted) =>
    if _more : out.size < count ∧ taken < data.length then
      decompressFor count data (taken + portion)
    else (out, .error .exhausted)
  | result => result
termination_by data.length - taken
decreasing_by
  simp only [portion]
  omega

/-- What a run gives where `count` bytes are wanted: the first ones that are out, even if the stream
then breaks off, and all that are out if it ends before. -/
def Output.first (count : Nat) (run : Output Unit) : Except Error (List UInt8) :=
  match run with
  | (_, .error .corrupt) => .error .corrupt
  | (out, .error .exhausted) =>
    if out.size ≥ count then .ok (out.toList.take count) else .error .incomplete
  | (out, .error .held) => .ok (out.toList.take count)
  | (out, .ok ()) => .ok (out.toList.take count)

/-- The first `count` bytes that a stream stands for, or all of them if they are fewer. Damage
counts where it is met before a byte would come out after the first `window` ones, in a portion of
the stream that has to be taken; a stream that breaks off counts as read once `count` bytes are
out. -/
def inflateUpTo (count : Nat) (data : List UInt8) : Except Error (List UInt8) :=
  (decompressFor count data portion).first count

end PenDrawing.Zlib
