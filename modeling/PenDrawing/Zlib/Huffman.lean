import PenDrawing.Zlib.Bits

/-!
# Huffman codes as trees

A code is a binary tree whose leaves are symbols: a symbol's bits are the way down to it. Codes
are sent as the lengths of these ways only, and **`layer`** builds the one tree that canonical
codes have: at each depth the symbols of that length stand first, in their order, and the inner
nodes follow, which are the nodes of the next depth, two by two.

* **`Code.ofLengths`** is that tree, or nothing where the lengths claim more room than there is.
* **`Code.isComplete`** says that every way down ends at a symbol, and **`Code.padded`** lets long
  ways without one end at symbol zero.
* **`Code.read`** walks down the tree, a bit at a step; **`Code.size_read_lt`** says that it
  takes at least one bit, so a decoder that reads symbols comes to an end.
-/

namespace PenDrawing.Zlib

/-- A part of a code. Ways that no symbol has end at `unused`. -/
inductive Tree where
  | unused
  | leaf (symbol : Nat)
  | node (zero one : Tree)
deriving Repr

/-- A code: what the first bit of a symbol leads to. -/
structure Code where
  zero : Tree
  one : Tree
deriving Repr

namespace Tree

/-- Every way down ends at a symbol. -/
def isComplete : Tree → Bool
  | unused => false
  | leaf _ => true
  | node zero one => zero.isComplete && one.isComplete

/-- The tree in which ways longer than `checked` bits that no symbol has lead to symbol zero. -/
def padded : (checked : Nat) → Tree → Tree
  | 0, unused => leaf 0
  | _ + 1, unused => unused
  | _, leaf symbol => leaf symbol
  | checked, node zero one => node (zero.padded (checked - 1)) (one.padded (checked - 1))

/-- The symbol that the next bits lead to. -/
def read : Tree → Reader Nat
  | unused => Reader.corrupt
  | leaf symbol => pure symbol
  | node zero one => do if ← Reader.bit then one.read else zero.read

/-- Nodes put under inner nodes, two by two; the last one may lack its neighbour. -/
def pairUp : List Tree → List Tree
  | a :: b :: rest => node a b :: pairUp rest
  | [a] => [node a unused]
  | [] => []

theorem shrinks_read (tree : Tree) : Reader.Shrinks tree.read := by
  induction tree with
  | unused => exact Reader.shrinks_corrupt
  | leaf symbol => exact Reader.shrinks_pure symbol
  | node zero one zero_shrinks one_shrinks =>
    exact Reader.shrinks_bit.bind fun _ => one_shrinks.ite zero_shrinks

end Tree

namespace Code

/-- The longest way down. -/
def maxLength : Nat := 15

/-- The symbols whose way down has a given length. -/
def leavesAt (lengths : List Nat) (length : Nat) : List Tree :=
  (lengths.zipIdx.filter (·.1 = length)).map (Tree.leaf ·.2)

/-- The nodes that stand `height` steps above the deepest place a symbol can have. -/
def layer (lengths : List Nat) : (height : Nat) → List Tree
  | 0 => leavesAt lengths maxLength
  | height + 1 =>
    leavesAt lengths (maxLength - (height + 1)) ++ Tree.pairUp (layer lengths height)

/-- The code with these lengths, one for each symbol from zero on; length zero leaves a symbol
out. There is none if more than two nodes would follow the first bit. -/
def ofLengths (lengths : List Nat) : Option Code :=
  match layer lengths (maxLength - 1) with
  | [] => some ⟨.unused, .unused⟩
  | [zero] => some ⟨zero, .unused⟩
  | [zero, one] => some ⟨zero, one⟩
  | _ => none

/-- Every way down ends at a symbol. -/
def isComplete (code : Code) : Bool := code.zero.isComplete && code.one.isComplete

/-- How many bits of a way are looked up at once. A way that no symbol has is noticed among these
bits only. -/
def checkedBits : Nat := 10

/-- The code in which ways that no symbol has, and that part from all others behind the bits that
are looked up at once, lead to symbol zero. -/
def padded (code : Code) : Code := ⟨code.zero.padded checkedBits, code.one.padded checkedBits⟩

/-- Takes the symbol that the next bits stand for. -/
def read (code : Code) : Reader Nat := (Tree.node code.zero code.one).read

theorem shrinks_read (code : Code) : Reader.Shrinks code.read := Tree.shrinks_read _

/-- Reading a symbol takes at least one bit. -/
theorem size_read_lt {code : Code} {bits rest : Bits} {symbol : Nat}
    (h : code.read bits = .ok (symbol, rest)) : rest.size < bits.size := by
  obtain ⟨b, mid, first, next⟩ := Reader.bind_eq_ok h
  have one_bit := Reader.size_bit first
  have : rest.size ≤ mid.size :=
    (code.one.shrinks_read.ite code.zero.shrinks_read) mid rest symbol next
  omega

end Code

end PenDrawing.Zlib
