import PenDrawing.Zlib.Inflate
import Mathlib.Tactic.Common

/-!
# Reading a part of a stream

A stream may be read with some of its bytes still missing, and no further than a number of bytes
come out.  What comes out so early is the beginning of what the whole stream stands for:

* a reader is **steady** if more bytes behind those it has change nothing, unless it runs out of
  bits; all readers of the format are (`steady_readBlock` and the lemmas before it);
* what comes out is never taken back (`extends_copyBlocks`);
* a run that may stop early **leads** to the run over the whole stream (`Leads`): it ends as that
  one does, with the same bytes out, or it stops with the first of these bytes (`leads_decompress`).
-/

namespace PenDrawing.Zlib

/-- The unread part of a stream, with more bytes behind it. -/
def Bits.append (bits : Bits) (extra : List UInt8) : Bits := ⟨bits.pending, bits.bytes ++ extra⟩

theorem Bits.append_nil (bits : Bits) : bits.append [] = bits := by
  show (⟨bits.pending, bits.bytes ++ []⟩ : Bits) = bits
  rw [List.append_nil]

theorem Bits.ofBytes_append (bytes extra : List UInt8) :
    (Bits.ofBytes bytes).append extra = Bits.ofBytes (bytes ++ extra) := rfl

/-! ## Steady readers -/

namespace Reader

variable {α β : Type} {extra : List UInt8}

/-- How reading with fewer bytes goes with reading the same and `extra` bytes: it ends alike, or
it runs out of bits, and that only where there are extra bytes to make a difference. -/
inductive Agrees (extra : List UInt8) :
    Except Halt (α × Bits) → Except Halt (α × Bits) → Prop where
  | ok (a : α) (rest : Bits) : Agrees extra (.ok (a, rest)) (.ok (a, rest.append extra))
  | corrupt : Agrees extra (.error .corrupt) (.error .corrupt)
  | exhausted {full : Except Halt (α × Bits)} (same : extra = [] → full = .error .exhausted) :
      Agrees extra (.error .exhausted) full

/-- A reader is steady if bytes behind those it has change nothing, unless it runs out of bits. -/
def Steady (r : Reader α) : Prop :=
  ∀ (bits : Bits) (extra : List UInt8), Agrees extra (r bits) (r (bits.append extra))

theorem steady_pure (a : α) : Steady (pure a : Reader α) := by
  intro bits extra
  exact Agrees.ok a bits

theorem steady_corrupt : Steady (corrupt : Reader α) := by
  intro bits extra
  exact Agrees.corrupt

/-- Two readers in a row agree if the first one does, and the second one behind whatever the first
one takes of the fewer bytes. -/
theorem Agrees.bind {r : Reader α} {f : α → Reader β} {bits : Bits}
    (first : Agrees extra (r bits) (r (bits.append extra)))
    (next : ∀ a rest, r bits = .ok (a, rest) → Agrees extra (f a rest) (f a (rest.append extra))) :
    Agrees extra ((r >>= f) bits) ((r >>= f) (bits.append extra)) := by
  show Agrees extra ((r bits).bind fun p => f p.1 p.2)
    ((r (bits.append extra)).bind fun p => f p.1 p.2)
  revert first next
  generalize r bits = early
  generalize r (bits.append extra) = full
  intro first next
  cases first with
  | ok a rest => exact next a rest rfl
  | corrupt => exact Agrees.corrupt
  | exhausted same =>
      refine Agrees.exhausted fun none => ?_
      rw [same none]
      rfl

theorem Steady.bind {r : Reader α} {f : α → Reader β} (hr : Steady r)
    (hf : ∀ a, Steady (f a)) : Steady (r >>= f) := by
  intro bits extra
  exact (hr bits extra).bind fun a rest _ => hf a rest extra

theorem Steady.ite {c : Prop} [Decidable c] {r s : Reader α} (hr : Steady r) (hs : Steady s) :
    Steady (if c then r else s) := by
  split <;> assumption

theorem steady_bit : Steady bit := by
  rintro ⟨pending, bytes⟩ extra
  match pending, bytes with
  | b :: pending, bytes => exact Agrees.ok b ⟨pending, bytes⟩
  | [], byte :: bytes => exact Agrees.ok _ ⟨upperBits byte, bytes⟩
  | [], [] =>
      refine Agrees.exhausted fun none => ?_
      rw [none]
      rfl

theorem steady_number (count : Nat) : Steady (number count) := by
  induction count with
  | zero => exact steady_pure 0
  | succ count ih => exact steady_bit.bind fun _ => ih.bind fun _ => steady_pure _

theorem steady_align : Steady align := by
  intro bits extra
  exact Agrees.ok () ⟨[], bits.bytes⟩

end Reader

open Reader in
theorem Tree.steady_read (tree : Tree) : Steady tree.read := by
  induction tree with
  | unused => exact steady_corrupt
  | leaf symbol => exact steady_pure symbol
  | node zero one zero_steady one_steady =>
      exact steady_bit.bind fun _ => one_steady.ite zero_steady

theorem Code.steady_read (code : Code) : Reader.Steady code.read := Tree.steady_read _

/-! ### The readers of the format -/

open Reader

theorem steady_expect (code : Option Code) : Steady (expect code) := by
  cases code with
  | none => exact steady_corrupt
  | some code => exact steady_pure code

theorem steady_readTriples (count : Nat) : Steady (readTriples count) := by
  induction count with
  | zero => exact steady_pure []
  | succ count ih => exact (steady_number 3).bind fun _ => ih.bind fun _ => steady_pure _

theorem steady_readLengthRun (symbol : Nat) (latest : Option Nat) :
    Steady (readLengthRun symbol latest) := by
  refine (steady_pure _).ite (Steady.ite ?_ (Steady.ite ?_ ?_))
  · cases latest with
    | none => exact steady_corrupt
    | some length => exact (steady_number 2).bind fun _ => steady_pure _
  · exact (steady_number 3).bind fun _ => steady_pure _
  · exact (steady_number 7).bind fun _ => steady_pure _

/-- What taking lengths does as long as some are missing: a symbol, what it adds, and the rest. -/
theorem readLengths_of_lt {code : Code} {count : Nat} {lengths : List Nat} {bits : Bits}
    (h : ¬ lengths.length ≥ count) :
    readLengths code count lengths bits
      = (do
        let symbol ← code.read
        let run ← readLengthRun symbol lengths.head?
        readLengths code count (run ++ lengths) : Reader (List Nat)) bits := by
  rw [readLengths, if_neg h]
  show _ = (code.read bits).bind fun p =>
    (readLengthRun p.1 lengths.head? p.2).bind fun q => readLengths code count (q.1 ++ lengths) q.2
  split
  · rename_i read
    rw [read]
    rfl
  · rename_i symbol mid read
    rw [read]
    show _ = (readLengthRun symbol lengths.head? mid).bind fun q =>
      readLengths code count (q.1 ++ lengths) q.2
    split
    · rename_i added
      rw [added]
      rfl
    · rename_i run rest added
      rw [added]
      rfl

theorem steady_readLengths (code : Code) (count : Nat) (lengths : List Nat) :
    Steady (readLengths code count lengths) := by
  -- on the bits that are left: each turn takes a symbol, and so at least one bit
  intro bits
  induction size : bits.size using Nat.strongRecOn generalizing lengths bits with
  | ind size ih =>
      intro extra
      by_cases enough : lengths.length ≥ count
      · rw [readLengths, if_pos enough, readLengths, if_pos enough]
        exact Agrees.ok lengths bits
      · rw [readLengths_of_lt enough, readLengths_of_lt enough]
        refine (code.steady_read bits extra).bind fun symbol mid read => ?_
        refine (steady_readLengthRun symbol lengths.head? mid extra).bind fun run rest added => ?_
        have := Code.size_read_lt read
        have := shrinks_readLengthRun symbol lengths.head? mid rest run added
        exact ih rest.size (by omega) (run ++ lengths) rest rfl extra

theorem steady_readCodes : Steady readCodes :=
  (steady_number 5).bind fun _ => (steady_number 5).bind fun _ => (steady_number 4).bind fun _ =>
    steady_corrupt.ite <| (steady_readTriples _).bind fun _ => (steady_expect _).bind fun _ =>
      (steady_readLengths _ _ _).bind fun _ => steady_corrupt.ite <|
        (steady_expect _).bind fun _ => (steady_expect _).bind fun _ => steady_pure _

/-- Reading the head of a block does not look at what comes later. -/
theorem steady_readBlock : Steady readBlock := by
  refine steady_bit.bind fun final => (steady_number 2).bind fun kind => ?_
  split
  · exact steady_align.bind fun _ => (steady_number 16).bind fun _ =>
      (steady_number 16).bind fun _ => (steady_pure _).ite steady_corrupt
  · exact (steady_expect _).bind fun _ => (steady_expect _).bind fun _ => steady_pure _
  · exact steady_readCodes.bind fun _ => steady_pure _
  · exact steady_corrupt

theorem steady_readFromBase (bases : List (Nat × Nat)) (symbol : Nat) :
    Steady (readFromBase bases symbol) := by
  rw [readFromBase]
  split
  · exact (steady_number _).bind fun _ => steady_pure _
  · exact steady_corrupt

theorem steady_readRest (distances : Code) (symbol : Nat) :
    Steady (readRest distances symbol) :=
  (steady_pure _).ite <| (steady_pure _).ite <| (steady_readFromBase _ _).bind fun _ =>
    distances.steady_read.bind fun _ => (steady_readFromBase _ _).bind fun _ => steady_pure _

/-- Reading a token does not look at what comes later. -/
theorem steady_readToken (literals distances : Code) : Steady (readToken literals distances) :=
  literals.steady_read.bind (steady_readRest distances)

theorem steady_readHeader : Steady readHeader :=
  (steady_number 8).bind fun _ => (steady_number 8).bind fun _ =>
    (steady_pure ()).ite steady_corrupt

theorem steady_readChecksum (out : Array UInt8) : Steady (readChecksum out) :=
  steady_align.bind fun _ => (steady_number 8).bind fun _ => (steady_number 8).bind fun _ =>
    (steady_number 8).bind fun _ => (steady_number 8).bind fun _ =>
      (steady_pure ()).ite steady_corrupt

/-! ## Runs that put bytes out -/

namespace Output

variable {α β : Type}

/-- Goes on from where a run has come to, if it has not stopped. -/
def andThen (run : Output α) (next : Array UInt8 → α → Output β) : Output β :=
  match run with
  | (out, .ok a) => next out a
  | (out, .error halt) => (out, .error halt)

theorem andThen_ok (out : Array UInt8) (a : α) (next : Array UInt8 → α → Output β) :
    andThen (out, .ok a) next = next out a := rfl

end Output

/-- A turn of a coded block: a token, what it stands for, and the rest of the block. -/
theorem copyTokens_eq (hold : Option Nat) (literals distances : Code) (bits : Bits)
    (out : Array UInt8) :
    copyTokens hold literals distances bits out
      = Output.andThen (out, readToken literals distances bits) fun out taken =>
        match taken.1 with
        | .finish => (out, .ok taken.2)
        | .byte b =>
          if isFull hold out then (out, .error .held)
          else copyTokens hold literals distances taken.2 (out.push b)
        | .copy length distance =>
          (copyMatch hold distance length out).andThen fun out _ =>
            copyTokens hold literals distances taken.2 out := by
  rw [copyTokens]
  split
  · rename_i read
    rw [read]
    rfl
  · rename_i read
    rw [read]
    rfl
  · rename_i read
    rw [read]
    rfl
  · rename_i length distance rest read
    rw [read]
    show _ = (copyMatch hold distance length out).andThen _
    split
    · rename_i copied
      rw [copied]
      rfl
    · rename_i copied
      rw [copied]
      rfl

/-- A turn of a stream: a block, what it stands for, and the blocks after it. -/
theorem copyBlocks_eq (hold : Option Nat) (bits : Bits) (out : Array UInt8) :
    copyBlocks hold bits out
      = Output.andThen (out, readBlock bits) fun out taken =>
        (taken.1.2.copy hold taken.2 out).andThen fun out rest =>
          if taken.1.1 then (out, .ok rest) else copyBlocks hold rest out := by
  rw [copyBlocks]
  split
  · rename_i read
    rw [read]
    rfl
  · rename_i final block mid read
    rw [read]
    show _ = (block.copy hold mid out).andThen _
    split
    · rename_i copied
      rw [copied]
      rfl
    · rename_i copied
      rw [copied]
      rfl

/-- A whole stream: its header, its blocks, its checksum. -/
theorem decompress_eq (hold : Option Nat) (data : List UInt8) :
    decompress hold data
      = Output.andThen (#[], readHeader (.ofBytes data)) fun out taken =>
        (copyBlocks hold taken.2 out).andThen fun out rest =>
          Output.andThen (out, readChecksum out rest) fun out _ => (out, .ok ()) := by
  rw [decompress]
  split
  · rename_i read
    rw [read]
    rfl
  · rename_i bits read
    rw [read]
    show _ = (copyBlocks hold bits #[]).andThen _
    split
    · rename_i copied
      rw [copied]
      rfl
    · rename_i out rest copied
      rw [copied]
      show _ = Output.andThen (out, readChecksum out rest) _
      split
      · rename_i summed
        rw [summed]
        rfl
      · rename_i summed
        rw [summed]
        rfl

/-! ### Bytes that are out stay out -/

namespace Output

variable {α β : Type}

/-- The bytes of `out` are the first ones that a run has put out. -/
def Extends (out : Array UInt8) (run : Output α) : Prop := out.toList <+: run.1.toList

theorem extends_self (out : Array UInt8) (result : Except Halt α) : Extends out (out, result) :=
  List.prefix_refl _

/-- What extends the output goes on extending it. -/
theorem Extends.andThen {out : Array UInt8} {run : Output α} {next : Array UInt8 → α → Output β}
    (first : Extends out run) (later : ∀ out a, Extends out (next out a)) :
    Extends out (run.andThen next) := by
  obtain ⟨mid, result⟩ := run
  cases result with
  | error halt => exact first
  | ok a => exact List.IsPrefix.trans first (later mid a)

theorem Extends.of_push {out : Array UInt8} {b : UInt8} {run : Output α}
    (h : Extends (out.push b) run) : Extends out run := by
  refine List.IsPrefix.trans ?_ h
  rw [Array.toList_push]
  exact List.prefix_append _ _

end Output

open Output

theorem extends_copyMatch (hold : Option Nat) (distance length : Nat) (out : Array UInt8) :
    Extends out (copyMatch hold distance length out) := by
  induction length generalizing out with
  | zero => exact extends_self _ _
  | succ length ih =>
      rw [copyMatch]
      split
      · exact extends_self _ _
      · exact (ih _).of_push

theorem extends_copyStored (hold : Option Nat) (count : Nat) (bytes : List UInt8)
    (out : Array UInt8) : Extends out (copyStored hold count bytes out) := by
  induction count generalizing bytes out with
  | zero => exact extends_self _ _
  | succ count ih =>
      cases bytes with
      | nil => exact extends_self _ _
      | cons b bytes =>
          rw [copyStored]
          split
          · exact extends_self _ _
          · exact (ih _ _).of_push

theorem extends_copyTokens (hold : Option Nat) (literals distances : Code) (bits : Bits)
    (out : Array UInt8) : Extends out (copyTokens hold literals distances bits out) := by
  fun_induction copyTokens hold literals distances bits out with
  | case1 => exact extends_self _ _
  | case2 => exact extends_self _ _
  | case3 => exact extends_self _ _
  | case4 bits out b rest read _ ih => exact ih.of_push
  | case5 bits out length distance rest read mid halt copied =>
      have first := extends_copyMatch hold distance length out
      rw [copied] at first
      exact first
  | case6 bits out length distance rest read mid copied ih =>
      have first := extends_copyMatch hold distance length out
      rw [copied] at first
      exact List.IsPrefix.trans first ih

theorem Block.extends_copy (hold : Option Nat) (block : Block) (bits : Bits)
    (out : Array UInt8) : Extends out (block.copy hold bits out) := by
  cases block with
  | stored count => exact extends_copyStored hold count bits.bytes out
  | coded literals distances => exact extends_copyTokens hold literals distances bits out

/-- Copying blocks only adds to the output. -/
theorem extends_copyBlocks (hold : Option Nat) (bits : Bits) (out : Array UInt8) :
    Extends out (copyBlocks hold bits out) := by
  fun_induction copyBlocks hold bits out with
  | case1 => exact extends_self _ _
  | case2 bits out final block mid read mid' halt copied =>
      have first := block.extends_copy hold mid out
      rw [copied] at first
      exact first
  | case3 bits out block mid out' rest copied read =>
      have first := block.extends_copy hold mid out
      rw [copied] at first
      exact first
  | case4 bits out final block mid read out' rest copied _ ih =>
      have first := block.extends_copy hold mid out
      rw [copied] at first
      exact List.IsPrefix.trans first ih

/-! ## Runs that stop early -/

/-- How a run that may stop early goes with the run over the whole stream.  It ends as that one
does, with the same bytes out, or it stops with the first ones of them: because its bytes break
off, which they do not if none are missing, or because it may put out no more.  `more` is what the
missing bytes add to what a run comes to. -/
inductive Leads {α : Type} (hold : Option Nat) (extra : List UInt8) (more : α → α) :
    Output α → Output α → Prop where
  | ended (out : Array UInt8) (a : α) : Leads hold extra more (out, .ok a) (out, .ok (more a))
  | corrupt (out : Array UInt8) :
      Leads hold extra more (out, .error .corrupt) (out, .error .corrupt)
  | broken {out : Array UInt8} {full : Output α} (begins : Extends out full)
      (same : extra = [] → full.2 = .error .exhausted) :
      Leads hold extra more (out, .error .exhausted) full
  | held {out : Array UInt8} {full : Output α} (filled : isFull hold out = true)
      (begins : Extends out full) : Leads hold extra more (out, .error .held) full

variable {α β : Type} {hold : Option Nat} {extra : List UInt8}

/-- A reader that agrees puts nothing out, so as a run it leads. -/
theorem Reader.Agrees.leads {early full : Except Halt (α × Bits)} (h : Agrees extra early full)
    (out : Array UInt8) :
    Leads hold extra (fun p => (p.1, p.2.append extra)) ((out, early) : Output (α × Bits))
      (out, full) := by
  cases h with
  | ok a rest => exact Leads.ended out (a, rest)
  | corrupt => exact Leads.corrupt out
  | exhausted same => exact Leads.broken (extends_self _ _) same

/-- A run that leads goes on leading, if what comes next does wherever the run has come to. -/
theorem Leads.andThen {more : α → α} {more' : β → β} {early full : Output α}
    {next next' : Array UInt8 → α → Output β} (first : Leads hold extra more early full)
    (later : ∀ out a, Extends out (next' out a))
    (step : ∀ out a, early = (out, .ok a) →
      Leads hold extra more' (next out a) (next' out (more a))) :
    Leads hold extra more' (early.andThen next) (full.andThen next') := by
  cases first with
  | ended out a => exact step out a rfl
  | corrupt out => exact Leads.corrupt out
  | broken begins same =>
      refine Leads.broken (begins.andThen later) fun none => ?_
      -- with no bytes missing the whole run breaks off at the same place
      obtain ⟨out', result⟩ := full
      have stopped : result = .error .exhausted := same none
      rw [stopped]
      rfl
  | held filled begins => exact Leads.held filled (begins.andThen later)

theorem leads_copyMatch (distance length : Nat) (out : Array UInt8) :
    Leads hold extra id (copyMatch hold distance length out)
      (copyMatch none distance length out) := by
  induction length generalizing out with
  | zero => exact Leads.ended out ()
  | succ length ih =>
      by_cases filled : isFull hold out = true
      · rw [copyMatch, if_pos filled]
        exact Leads.held filled (extends_copyMatch _ _ _ _)
      · rw [copyMatch, if_neg filled]
        exact ih _

theorem leads_copyStored (count : Nat) (bytes : List UInt8) (out : Array UInt8) :
    Leads hold extra (·.append extra) (copyStored hold count bytes out)
      (copyStored none count (bytes ++ extra) out) := by
  induction count generalizing bytes out with
  | zero => exact Leads.ended out (Bits.ofBytes bytes)
  | succ count ih =>
      cases bytes with
      | nil =>
          refine Leads.broken (extends_copyStored _ _ _ _) fun none => ?_
          rw [none]
          rfl
      | cons b bytes =>
          by_cases filled : isFull hold out = true
          · rw [copyStored, if_pos filled]
            exact Leads.held filled (extends_copyStored _ _ _ _)
          · rw [copyStored, if_neg filled]
            exact ih bytes (out.push b)

/-- A bounded copy of tokens leads to the one without a bound. -/
theorem leads_copyTokens (literals distances : Code) (bits : Bits) (out : Array UInt8) :
    Leads hold extra (·.append extra) (copyTokens hold literals distances bits out)
      (copyTokens none literals distances (bits.append extra) out) := by
  -- on the bits that are left: each token takes at least one of them
  induction size : bits.size using Nat.strongRecOn generalizing bits out with
  | ind size ih =>
      rw [copyTokens_eq hold, copyTokens_eq none]
      refine ((steady_readToken literals distances bits extra).leads out).andThen ?_ ?_
      · rintro out ⟨token, rest⟩
        cases token with
        | finish => exact extends_self _ _
        | byte b => exact (extends_copyTokens _ _ _ _ _).of_push
        | copy length distance =>
            exact (extends_copyMatch _ _ _ _).andThen fun _ _ => extends_copyTokens _ _ _ _ _
      · rintro out' ⟨token, rest⟩ read
        obtain ⟨rfl, found⟩ := Prod.mk.inj read
        have shorter := size_readToken_lt found
        cases token with
        | finish => exact Leads.ended out rest
        | byte b =>
            by_cases filled : isFull hold out = true
            · show Leads _ _ _ (if _ then _ else _) _
              rw [if_pos filled]
              exact Leads.held filled (extends_copyTokens _ _ _ _ _).of_push
            · show Leads _ _ _ (if _ then _ else _) _
              rw [if_neg filled]
              exact ih rest.size (by omega) rest (out.push b) rfl
        | copy length distance =>
            refine (leads_copyMatch distance length out).andThen ?_ ?_
            · exact fun _ _ => extends_copyTokens _ _ _ _ _
            · exact fun mid _ _ => ih rest.size (by omega) rest mid rfl

/-- A bounded copy of a block leads to the one without a bound. -/
theorem Block.leads_copy (block : Block) (bits : Bits) (out : Array UInt8) :
    Leads hold extra (·.append extra) (block.copy hold bits out)
      (block.copy none (bits.append extra) out) := by
  cases block with
  | stored count => exact leads_copyStored count bits.bytes out
  | coded literals distances => exact leads_copyTokens literals distances bits out

/-- A bounded copy of blocks leads to the one without a bound. -/
theorem leads_copyBlocks (bits : Bits) (out : Array UInt8) :
    Leads hold extra (·.append extra) (copyBlocks hold bits out)
      (copyBlocks none (bits.append extra) out) := by
  -- on the bits that are left: each block takes at least one of them
  induction size : bits.size using Nat.strongRecOn generalizing bits out with
  | ind size ih =>
      have later : ∀ (final : Bool) (out : Array UInt8) (rest : Bits),
          Extends out (if final = true then (out, .ok rest) else copyBlocks none rest out) := by
        intro final out rest
        split
        · exact extends_self _ _
        · exact extends_copyBlocks _ _ _
      rw [copyBlocks_eq hold, copyBlocks_eq none]
      refine ((steady_readBlock bits extra).leads out).andThen ?_ ?_
      · rintro out ⟨⟨final, block⟩, mid⟩
        exact (block.extends_copy _ _ _).andThen (later final)
      · rintro out' ⟨⟨final, block⟩, mid⟩ read
        obtain ⟨rfl, found⟩ := Prod.mk.inj read
        refine (block.leads_copy mid out).andThen (later final) ?_
        intro out' rest copied
        have := size_readBlock_lt found
        have := Block.size_copy_le (by rw [copied] : (block.copy hold mid out).2 = .ok rest)
        cases final with
        | true => exact Leads.ended out' rest
        | false => exact ih rest.size (by omega) rest out' rfl

/-- **A part of a stream leads**: reading it, with a limit or without one, ends as reading the whole
stream does, or stops with the first bytes of what the stream stands for. -/
theorem leads_decompress (hold : Option Nat) (data extra : List UInt8) :
    Leads hold extra id (decompress hold data) (decompress none (data ++ extra)) := by
  rw [decompress_eq hold, decompress_eq none, ← Bits.ofBytes_append]
  -- the checksum puts nothing out
  have ended : ∀ (out : Array UInt8) (rest : Bits),
      Extends out (Output.andThen (out, readChecksum out rest) fun out _ => (out, .ok ())) :=
    fun out _ => (extends_self out _).andThen fun _ _ => extends_self _ _
  refine ((steady_readHeader (.ofBytes data) extra).leads #[]).andThen ?_ ?_
  · exact fun out taken => (extends_copyBlocks _ _ _).andThen ended
  · rintro out ⟨_, bits⟩ -
    refine (leads_copyBlocks bits out).andThen ended ?_
    rintro out rest -
    refine ((steady_readChecksum out rest extra).leads out).andThen ?_ ?_
    · exact fun _ _ => extends_self _ _
    · exact fun out _ _ => Leads.ended out ()

end PenDrawing.Zlib
