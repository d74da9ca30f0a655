import PenDrawing.Proofs.Zlib.Portion

/-!
# Reading no more bytes than are asked for

A stream is taken portion by portion, and no more of it than it takes to put a number of bytes out.
The run that counts is one over some first bytes of the stream (`exists_portion`), and such a run
leads to the run over the whole stream.  So what bounded reading gives goes with what comes out of
the whole stream, even if the bytes that are read are only its beginning (`bounded_inflateUpTo`):

* the first bytes of a sound stream come out (`inflateUpTo_of_inflate`);
* fewer bytes than were asked for come out only if the stream is sound, and has no others
  (`inflate_of_inflateUpTo`);
* a stream that fails before as many bytes are out fails alike (`inflateUpTo_of_error`).
-/

namespace PenDrawing.Zlib

/-! ## Streams without a limit -/

/-- Reading without a limit is never held up. -/
theorem decompress_ne_held (data : List UInt8) (out : Array UInt8) :
    decompress none data ≠ (out, .error .held) := by
  intro h
  have leads := leads_decompress none data []
  rw [h] at leads
  cases leads with
  | held filled _ => exact Bool.noConfusion filled

/-- What a sound stream stands for is what comes out of it up to its end. -/
theorem decompress_of_inflate {data bytes : List UInt8} (h : inflate data = .ok bytes) :
    decompress none data = (bytes.toArray, .ok ()) := by
  rw [inflate] at h
  split at h
  · cases h
  · cases h
  · rename_i out held
    exact (decompress_ne_held data out held).elim
  · rename_i out ended
    rw [ended, ← Except.ok.inj h]

/-- What is decompressed without a bound is what a stream inflates to. -/
theorem inflate_of_decompress {data : List UInt8} {out : Array UInt8}
    (h : decompress none data = (out, .ok ())) : inflate data = .ok out.toList := by
  rw [inflate, h]

/-! ## Portions -/

/-- Portion after portion, the run that counts is one over some first bytes of the stream.  If it
breaks off with too few bytes out, these were all bytes that there are. -/
theorem exists_portion (count : Nat) (data : List UInt8) (taken : Nat) :
    ∃ early later, data = early ++ later ∧
      decompressFor count data taken = decompress (some window) early ∧
      ∀ out, decompress (some window) early = (out, .error .exhausted) → out.size < count →
        later = [] := by
  fun_induction decompressFor count data taken with
  | case1 taken out run more ih => exact ih
  | case2 taken out run done =>
      refine ⟨data.take taken, data.drop taken, (List.take_append_drop _ _).symm, run.symm, ?_⟩
      intro out' same few
      have stopped : out = out' := congrArg Prod.fst (run.symm.trans same)
      rw [← stopped] at few
      exact List.drop_eq_nil_of_le (by omega)
  | case3 taken unbroken =>
      refine ⟨data.take taken, data.drop taken, (List.take_append_drop _ _).symm, rfl, ?_⟩
      intro out same
      exact (unbroken out same).elim

/-- How what bounded reading gives goes with the run over the whole stream, which may have `extra`
bytes behind those that are read: all bytes of a stream that ends, the first ones where enough of
them come out, and the error of a stream that is damaged, or breaks off, before that. -/
inductive Bounded (count : Nat) (extra : List UInt8) :
    Except Error (List UInt8) → Output Unit → Prop where
  | ended (out : Array UInt8) :
      Bounded count extra (.ok (out.toList.take count)) (out, .ok ())
  | enough {full : Output Unit} (many : count ≤ full.1.size) :
      Bounded count extra (.ok (full.1.toList.take count)) full
  | corrupt (out : Array UInt8) :
      Bounded count extra (.error .corrupt) (out, .error .corrupt)
  | broken {full : Output Unit} (same : extra = [] → full.2 = .error .exhausted) :
      Bounded count extra (.error .incomplete) full

/-- The first bytes of a beginning are the first bytes of the whole. -/
theorem Bounded.of_extends {count : Nat} {extra : List UInt8} {early : Array UInt8}
    {full : Output Unit} (begins : Output.Extends early full) (many : count ≤ early.size) :
    Bounded count extra (.ok (early.toList.take count)) full := by
  obtain ⟨later, whole⟩ := begins
  have sized : count ≤ early.toList.length := by rwa [Array.length_toList]
  have taken : early.toList.take count = full.1.toList.take count := by
    rw [← whole, List.take_append_of_le_length sized]
  rw [taken]
  refine Bounded.enough ?_
  rw [← Array.length_toList, ← whole, List.length_append]
  omega

/-- **Bounded reading goes with full reading**, whatever may follow the bytes that are read. -/
theorem bounded_inflateUpTo {count : Nat} (within : count ≤ window) (data extra : List UInt8) :
    Bounded count extra (inflateUpTo count data) (decompress none (data ++ extra)) := by
  obtain ⟨early, later, whole, run, last⟩ := exists_portion count data portion
  have leads := leads_decompress (some window) early (later ++ extra)
  rw [← List.append_assoc, ← whole] at leads
  rw [inflateUpTo, run]
  revert leads last
  generalize decompress (some window) early = result
  generalize decompress none (data ++ extra) = full
  intro last leads
  cases leads with
  | ended out => exact Bounded.ended out
  | corrupt out => exact Bounded.corrupt out
  | @broken out _ begins same =>
      show Bounded count extra (if out.size ≥ count then _ else _) full
      by_cases many : out.size ≥ count
      · rw [if_pos many]
        exact Bounded.of_extends begins many
      · rw [if_neg many]
        -- all bytes were taken, so only the extra ones can be missing
        refine Bounded.broken fun none => same ?_
        rw [last out rfl (by omega), none]
        rfl
  | @held out _ filled begins =>
      -- what fills the window is at least what was asked for
      have full : out.size ≥ window := of_decide_eq_true filled
      exact Bounded.of_extends begins (by omega)

/-! ## What bounded reading gives -/

variable {count : Nat} {data : List UInt8}

/-- **Bounded reading agrees with full reading**: the first bytes of a sound stream come out,
however it is taken in portions, and whether or not it is read to its end. -/
theorem inflateUpTo_of_inflate {bytes : List UInt8} (h : inflate data = .ok bytes)
    (within : count ≤ window) : inflateUpTo count data = .ok (bytes.take count) := by
  have bounded := bounded_inflateUpTo within data []
  rw [List.append_nil, decompress_of_inflate h] at bounded
  revert bounded
  generalize inflateUpTo count data = result
  intro bounded
  cases bounded with
  | ended => rfl
  | enough => rfl
  | broken same => exact absurd (same rfl) (by intro ended; cases ended)

/-- No more bytes come out than were asked for. -/
theorem length_le_of_inflateUpTo {bytes : List UInt8} (h : inflateUpTo count data = .ok bytes)
    (within : count ≤ window) : bytes.length ≤ count := by
  have bounded := bounded_inflateUpTo within data []
  rw [h] at bounded
  revert bounded
  generalize decompress none (data ++ []) = full
  intro bounded
  cases bounded with
  | ended => exact List.length_take_le _ _
  | enough => exact List.length_take_le _ _

/-- **Few bytes come out only of a sound stream**: if there are fewer than were asked for, then they
are what the stream stands for, and whatever follows what was read does not matter. -/
theorem inflate_of_inflateUpTo {bytes : List UInt8} (h : inflateUpTo count data = .ok bytes)
    (few : bytes.length < count) (within : count ≤ window) (extra : List UInt8) :
    inflate (data ++ extra) = .ok bytes := by
  have bounded := bounded_inflateUpTo within data extra
  rw [h] at bounded
  revert bounded
  generalize run : decompress none (data ++ extra) = full
  intro bounded
  cases bounded with
  | ended out =>
      -- so few bytes that none was cut off
      have all : out.toList.take count = out.toList := by
        rw [List.length_take] at few
        exact List.take_of_length_le (by omega)
      rw [all]
      exact inflate_of_decompress run
  | enough many =>
      rw [List.length_take, Array.length_toList] at few
      omega

/-- **A stream that fails early fails alike**: if it is damaged, or breaks off, before as many bytes
are out as were asked for, bounded reading fails for the same reason. -/
theorem inflateUpTo_of_error {cause : Error} (h : inflate data = .error cause)
    (few : (decompress none data).1.size < count) (within : count ≤ window) :
    inflateUpTo count data = .error cause := by
  have bounded := bounded_inflateUpTo within data []
  rw [List.append_nil] at bounded
  rw [inflate] at h
  revert h few bounded
  generalize inflateUpTo count data = result
  generalize decompress none data = full
  intro h few bounded
  cases bounded with
  | ended => cases h
  | enough many => omega
  | corrupt => exact h
  | broken same =>
      obtain ⟨out, stop⟩ := full
      have exhausted : stop = .error .exhausted := same rfl
      rw [exhausted] at h
      exact h

end PenDrawing.Zlib
