import PenDrawing.Record
import Mathlib.Algebra.Group.Nat.Defs
import Mathlib.Tactic.Common

/-!
# Records hold paths

A record that was written is read as the path it was written for, and whatever bytes are read, no
path with more points than a record holds comes out.  The route: numbers of any width
(`number_numberBytes`), then points (`points_flatMap_pointBytes`), then the whole record, whose
header and points are cut out again where they were put.

The way back goes through the same stages (`numberBytes_number`, `flatMap_pointBytes_points`).  What
is written for a path that was read are the bytes that count, and zeros (`write_of_read`); so what
is read depends on nothing but these bytes (`read_exactly`).
-/

namespace PenDrawing.Record

/-! ## Numbers and points -/

/-- As many bytes of a number as are written are read back. -/
theorem number_numberBytes (width n : Nat) : number (numberBytes width n) = n % 256 ^ width := by
  induction width generalizing n with
  | zero => simp only [numberBytes, number, Nat.pow_zero, Nat.mod_one]
  | succ width ih =>
      have byte : (UInt8.ofNat (n % 256)).toNat = n % 256 := by
        rw [UInt8.toNat_ofNat']
        omega
      show (UInt8.ofNat (n % 256)).toNat + 256 * number (numberBytes width (n / 256)) = _
      rw [ih, byte, Nat.pow_succ, Nat.mul_comm (256 ^ width), Nat.mod_mul]

/-- The two bytes of a number of the grid are read back. -/
theorem word_wordBytes (w : UInt16) :
    word (UInt8.ofNat (w.toNat % 256)) (UInt8.ofNat (w.toNat / 256)) = w := by
  have hw := w.toNat_lt
  rw [word]
  rw [UInt8.toNat_ofNat', UInt8.toNat_ofNat',
    show w.toNat % 256 % 2 ^ 8 + 256 * (w.toNat / 256 % 2 ^ 8) = w.toNat by omega]
  exact UInt16.ofNat_toNat

/-- The bytes of points are read back as the points. -/
theorem points_flatMap_pointBytes (ps : List Point) : points (ps.flatMap pointBytes) = ps := by
  induction ps with
  | nil => rfl
  | cons p rest ih =>
      show Point.mk (word _ _) (word _ _) :: points (rest.flatMap pointBytes) = p :: rest
      rw [word_wordBytes, word_wordBytes, ih]

/-- The bytes of a number are written as they were. -/
theorem numberBytes_number (bytes : List UInt8) :
    numberBytes bytes.length (number bytes) = bytes := by
  induction bytes with
  | nil => rfl
  | cons b rest ih =>
      have hb := b.toNat_lt
      -- the first byte is the lowest digit, and the others are the rest of the number
      have digit : (b.toNat + 256 * number rest) % 256 = b.toNat := by omega
      have others : (b.toNat + 256 * number rest) / 256 = number rest := by omega
      show UInt8.ofNat ((b.toNat + 256 * number rest) % 256) ::
        numberBytes rest.length ((b.toNat + 256 * number rest) / 256) = b :: rest
      rw [digit, others, ih, UInt8.ofNat_toNat]

/-- The two bytes of a number of the grid are written as they were. -/
theorem wordBytes_word (lo hi : UInt8) : wordBytes (word lo hi) = [lo, hi] := by
  have hlo := lo.toNat_lt
  have hhi := hi.toNat_lt
  have value : (word lo hi).toNat = lo.toNat + 256 * hi.toNat := by
    rw [word, UInt16.toNat_ofNat']
    exact Nat.mod_eq_of_lt (by omega)
  rw [wordBytes, value, show (lo.toNat + 256 * hi.toNat) % 256 = lo.toNat by omega,
    show (lo.toNat + 256 * hi.toNat) / 256 = hi.toNat by omega, UInt8.ofNat_toNat,
    UInt8.ofNat_toNat]

/-- Bytes that make whole points are written as they were. -/
theorem flatMap_pointBytes_points {bytes : List UInt8} (whole : bytes.length % pointSize = 0) :
    (points bytes).flatMap pointBytes = bytes := by
  fun_induction points bytes with
  | case1 x₀ x₁ y₀ y₁ rest ih =>
      have whole' : rest.length % pointSize = 0 := by
        simp only [List.length_cons, pointSize] at whole ⊢
        omega
      show wordBytes (word x₀ x₁) ++ wordBytes (word y₀ y₁) ++ (points rest).flatMap pointBytes = _
      rw [wordBytes_word, wordBytes_word, ih whole']
      rfl
  | case2 bytes few =>
      -- fewer than four bytes make whole points only if there are none
      rcases bytes with _ | ⟨x₀, _ | ⟨x₁, _ | ⟨y₀, _ | ⟨y₁, rest⟩⟩⟩⟩
      · rfl
      · simp [pointSize] at whole
      · simp [pointSize] at whole
      · simp [pointSize] at whole
      · exact (few x₀ x₁ y₀ y₁ rest rfl).elim

/-- Four bytes make a point, and what is left over makes none. -/
theorem length_points (bytes : List UInt8) : (points bytes).length = bytes.length / pointSize := by
  fun_induction points bytes with
  | case1 x₀ x₁ y₀ y₁ rest ih =>
      simp only [List.length_cons, ih, pointSize]
      omega
  | case2 bytes few =>
      -- fewer than four bytes are left
      rcases bytes with _ | ⟨x₀, _ | ⟨x₁, _ | ⟨y₀, _ | ⟨y₁, rest⟩⟩⟩⟩
      · rfl
      · simp [pointSize]
      · simp [pointSize]
      · simp [pointSize]
      · exact (few x₀ x₁ y₀ y₁ rest rfl).elim

/-! ## Whole records -/

/-- A path that fits is written: its header, its points, and zeros. -/
theorem write_of_le {path : Path} (fits : path.length ≤ capacity) :
    write path = .ok (numberBytes headerSize path.length ++ path.points.flatMap pointBytes ++
      List.replicate (pointSize * (capacity - path.length)) 0) := by
  rw [write]
  rw [if_neg (by omega)]

/-- A path that does not fit is refused, with its number of points. -/
theorem write_of_lt {path : Path} (h : capacity < path.length) :
    write path = .error ⟨path.length⟩ := by
  rw [write]
  rw [if_pos h]

/-- **Record round trip**: what was written for a path is read as that path. -/
theorem read_of_write {path : Path} {bytes : List UInt8} (h : write path = .ok bytes) :
    read bytes = .ok path := by
  have sized := length_of_write h
  by_cases fits : path.length ≤ capacity
  · rw [write_of_le fits] at h
    have h := Except.ok.inj h
    -- the header and the points are cut out where they were put
    have header : bytes.take headerSize = numberBytes headerSize path.length := by
      rw [← h, List.append_assoc, List.take_left' (length_numberBytes _ _)]
    have body : bytes.drop headerSize = path.points.flatMap pointBytes ++
        List.replicate (pointSize * (capacity - path.length)) 0 := by
      rw [← h, List.append_assoc, List.drop_left' (length_numberBytes _ _)]
    -- the number of points is small enough for its two bytes
    have declared : number (bytes.take headerSize) = path.length := by
      rw [header, number_numberBytes]
      simp only [capacity] at fits
      exact Nat.mod_eq_of_lt (by simp only [headerSize]; omega)
    rw [read]
    rw [if_neg (not_not.mpr sized)]
    simp only [declared]
    rw [if_neg (by simp only [size, pointSize, capacity] at fits ⊢; omega), body,
      show path.length = path.points.length from rfl,
      List.take_left' (length_flatMap_pointBytes _), points_flatMap_pointBytes]
  · rw [write_of_lt (by omega)] at h
    cases h

/-- Bytes that are too few or too many are refused, with their number. -/
theorem read_of_length_ne {bytes : List UInt8} (h : bytes.length ≠ size) :
    read bytes = .error (.unexpectedSize bytes.length) := by
  rw [read]
  rw [if_pos h]

/-- Only bytes of the size of a record are read. -/
theorem length_of_read {bytes : List UInt8} {path : Path} (h : read bytes = .ok path) :
    bytes.length = size := by
  by_contra other
  rw [read_of_length_ne other] at h
  cases h

/-- The size that is reported is that of the bytes, and never the size of a record. -/
theorem eq_length_of_read {bytes : List UInt8} {actual : Nat}
    (h : read bytes = .error (.unexpectedSize actual)) :
    actual = bytes.length ∧ bytes.length ≠ size := by
  by_cases sized : bytes.length = size
  · rw [read, if_neg (not_not.mpr sized)] at h
    simp only at h
    split at h <;> cases h
  · rw [read_of_length_ne sized] at h
    cases h
    exact ⟨rfl, sized⟩

/-! ## The bytes that count -/

/-- The number of points that a record declares: its first four bytes, the lowest first. -/
def declared (bytes : List UInt8) : Nat :=
  (bytes.getD 0 0).toNat + 2 ^ 8 * (bytes.getD 1 0).toNat + 2 ^ 16 * (bytes.getD 2 0).toNat +
    2 ^ 24 * (bytes.getD 3 0).toNat

/-- Where the points that a record declares end. -/
def front (bytes : List UInt8) : Nat := headerSize + pointSize * declared bytes

/-- The first bytes of a record are the number of points that it declares. -/
theorem number_header {bytes : List UInt8} (sized : bytes.length = size) :
    number (bytes.take headerSize) = declared bytes := by
  rcases bytes with _ | ⟨b₀, _ | ⟨b₁, _ | ⟨b₂, _ | ⟨b₃, rest⟩⟩⟩⟩
  · cases sized
  · cases sized
  · cases sized
  · cases sized
  · show b₀.toNat + 256 * (b₁.toNat + 256 * (b₂.toNat + 256 * (b₃.toNat + 256 * 0))) =
      b₀.toNat + 2 ^ 8 * b₁.toNat + 2 ^ 16 * b₂.toNat + 2 ^ 24 * b₃.toNat
    omega

/-- A record that declares more points than fit is refused, with the number it declares. -/
theorem read_of_lt_declared {bytes : List UInt8} (sized : bytes.length = size)
    (many : capacity < declared bytes) :
    read bytes = .error (.truncatedPath (declared bytes)) := by
  rw [read, if_neg (not_not.mpr sized)]
  simp only [number_header sized]
  rw [if_pos (by simp only [size, pointSize]; omega)]

/-- A record that declares no more points than fit is read: the points lie behind its header. -/
theorem read_of_declared_le {bytes : List UInt8} (sized : bytes.length = size)
    (fits : declared bytes ≤ capacity) :
    read bytes =
      .ok ⟨points ((bytes.drop headerSize).take (pointSize * declared bytes))⟩ := by
  rw [read, if_neg (not_not.mpr sized)]
  simp only [number_header sized]
  rw [if_neg (by simp only [size, pointSize]; omega)]

/-- Only a record that declares no more points than fit is read. -/
theorem declared_le_of_read {bytes : List UInt8} {path : Path} (h : read bytes = .ok path) :
    declared bytes ≤ capacity := by
  by_contra many
  rw [read_of_lt_declared (length_of_read h) (Nat.lt_of_not_le many)] at h
  cases h

/-- The bytes behind the header hold the points that are declared. -/
theorem length_body {bytes : List UInt8} (sized : bytes.length = size)
    (fits : declared bytes ≤ capacity) :
    ((bytes.drop headerSize).take (pointSize * declared bytes)).length =
      pointSize * declared bytes := by
  rw [List.length_take, List.length_drop, sized]
  simp only [size, pointSize]
  omega

/-- As many points are read as are declared. -/
theorem length_eq_declared {bytes : List UInt8} {path : Path} (h : read bytes = .ok path) :
    path.length = declared bytes := by
  have sized := length_of_read h
  have fits := declared_le_of_read h
  rw [read_of_declared_le sized fits] at h
  rw [← Except.ok.inj h]
  show (points _).length = declared bytes
  rw [length_points, length_body sized fits]
  simp only [pointSize]
  omega

/-- No path with more points than a record holds is ever read. -/
theorem length_le_of_read {bytes : List UInt8} {path : Path} (h : read bytes = .ok path) :
    path.length ≤ capacity := by
  rw [length_eq_declared h]
  exact declared_le_of_read h

/-- What is written for a path that was read are the bytes up to where its points end, and
zeros. -/
theorem write_of_read {bytes : List UInt8} {path : Path} (h : read bytes = .ok path) :
    write path =
      .ok (bytes.take (front bytes) ++ List.replicate (pointSize * (capacity - path.length)) 0) := by
  have sized := length_of_read h
  have fits := declared_le_of_read h
  have count := length_eq_declared h
  rw [write_of_le (count ▸ fits)]
  rw [read_of_declared_le sized fits] at h
  have body : path.points.flatMap pointBytes =
      (bytes.drop headerSize).take (pointSize * declared bytes) := by
    rw [← Except.ok.inj h]
    refine flatMap_pointBytes_points ?_
    rw [length_body sized fits]
    exact Nat.mul_mod_right _ _
  have width : (bytes.take headerSize).length = headerSize :=
    List.length_take_of_le (by rw [sized]; decide)
  have header : numberBytes headerSize path.length = bytes.take headerSize := by
    have same := numberBytes_number (bytes.take headerSize)
    rw [width, number_header sized] at same
    rw [count]
    exact same
  rw [header, body, front, List.take_add]

/-- The points that a record declares end inside of it, if there are not too many. -/
theorem front_le {bytes : List UInt8} (fits : declared bytes ≤ capacity) : front bytes ≤ size := by
  simp only [front, size, pointSize]
  omega

/-- Records that agree up to where the points of one of them end declare as many points. -/
theorem declared_congr {bytes other : List UInt8}
    (same : other.take (front bytes) = bytes.take (front bytes)) :
    declared other = declared bytes := by
  have digit : ∀ i < headerSize, other.getD i 0 = bytes.getD i 0 := by
    intro i hi
    have inside : i < front bytes := Nat.lt_of_lt_of_le hi (Nat.le_add_right _ _)
    have there := congrArg (fun cut : List UInt8 => cut.getD i 0) same
    simpa [List.getD_eq_getElem?_getD, List.getElem?_take_of_lt inside] using there
  rw [declared, declared, digit 0 (by decide), digit 1 (by decide), digit 2 (by decide),
    digit 3 (by decide)]

/-- Records are read as one path exactly if they agree up to where its points end. -/
theorem read_eq_ok_iff {bytes other : List UInt8} {path : Path} (h : read bytes = .ok path) :
    read other = .ok path ↔
      other.length = size ∧ other.take (front bytes) = bytes.take (front bytes) := by
  have sized := length_of_read h
  have fits := declared_le_of_read h
  constructor
  · intro h'
    have sized' := length_of_read h'
    have count : declared other = declared bytes := by
      rw [← length_eq_declared h', length_eq_declared h]
    -- both are what was written for the path
    have written := Except.ok.inj ((write_of_read h').symm.trans (write_of_read h))
    refine ⟨sized', ?_⟩
    rw [front, count] at written
    exact List.append_cancel_right written
  · rintro ⟨sized', same⟩
    have count := declared_congr same
    have body : (other.drop headerSize).take (pointSize * declared bytes) =
        (bytes.drop headerSize).take (pointSize * declared bytes) := by
      have behind := congrArg (List.drop headerSize) same
      simpa only [List.drop_take, front, Nat.add_sub_cancel_left] using behind
    rw [← h, read_of_declared_le sized fits, read_of_declared_le sized' (count ▸ fits), count, body]

/-- **Records are read exactly.**  Bytes of another size than a record are refused with their number,
and records that declare too many points with the number that they declare.  All others are read as
a path of as many points as they declare.  What is written for that path agrees with the bytes up to
where the declared points end, and is zero from there on; and whatever is read as that path agrees
with them so far, in all else it may differ.  Every path that fits is written, and read again. -/
theorem read_exactly :
    (∀ bytes : List UInt8,
      (bytes.length ≠ size → read bytes = .error (.unexpectedSize bytes.length)) ∧
      (bytes.length = size → capacity < declared bytes →
        read bytes = .error (.truncatedPath (declared bytes))) ∧
      (bytes.length = size → declared bytes ≤ capacity →
        ∃ path written, read bytes = .ok path ∧ path.length = declared bytes ∧
          write path = .ok written ∧ written.length = size ∧
          written.take (front bytes) = bytes.take (front bytes) ∧
          (∀ b ∈ written.drop (front bytes), b = 0) ∧
          ∀ other, read other = .ok path ↔
            other.length = size ∧ other.take (front bytes) = bytes.take (front bytes))) ∧
    ∀ path : Path, path.length ≤ capacity →
      ∃ written, write path = .ok written ∧ read written = .ok path := by
  refine ⟨?_, ?_⟩
  · intro bytes
    refine ⟨read_of_length_ne, read_of_lt_declared, ?_⟩
    intro sized fits
    have own := read_of_declared_le sized fits
    have written := write_of_read own
    have width : (bytes.take (front bytes)).length = front bytes :=
      List.length_take_of_le (sized ▸ front_le fits)
    refine ⟨_, _, own, length_eq_declared own, written, length_of_write written,
      List.take_left' width, ?_, fun other => read_eq_ok_iff own⟩
    intro b hb
    rw [List.drop_left' width] at hb
    exact List.eq_of_mem_replicate hb
  · intro path fits
    exact ⟨_, write_of_le fits, read_of_write (write_of_le fits)⟩

/-- A record of one point with other bytes than zeros behind it; as many bytes that declare one point
more than fits; one byte too few; and a path of a pen-up point and a drawn one. -/
theorem read_exactly_one_point :
    let record : List UInt8 := [1, 0, 0, 0, 3, 0, 4, 0] ++ List.replicate 1020 255
    let long : List UInt8 := [1, 1, 0, 0] ++ List.replicate 1024 0
    let short : List UInt8 := List.replicate 1027 0
    (record.length = size ∧ declared record ≤ capacity ∧
      ∃ path written, read record = .ok path ∧ path.length = 1 ∧ write path = .ok written ∧
        written.take 8 = [1, 0, 0, 0, 3, 0, 4, 0] ∧ (∀ b ∈ written.drop 8, b = 0) ∧
        read ([1, 0, 0, 0, 3, 0, 4, 0] ++ List.replicate 1020 7) = .ok path) ∧
    (long.length = size ∧ capacity < declared long ∧ read long = .error (.truncatedPath 257)) ∧
    (short.length ≠ size ∧ read short = .error (.unexpectedSize 1027)) ∧
    Path.length ⟨[Point.penUp, ⟨100, 200⟩]⟩ ≤ capacity ∧
    ∃ written, write ⟨[Point.penUp, ⟨100, 200⟩]⟩ = .ok written ∧
      read written = .ok ⟨[Point.penUp, ⟨100, 200⟩]⟩ := by
  intro record long short
  have sized (first : List UInt8) (n : Nat) (b : UInt8) (h : first.length + n = size) :
      (first ++ List.replicate n b).length = size := by
    rw [List.length_append, List.length_replicate, h]
  have whole : record.length = size := sized _ 1020 255 rfl
  have whole' : long.length = size := sized _ 1024 0 rfl
  have fewer : short.length ≠ size := by
    rw [List.length_replicate]
    decide
  have fits : declared record ≤ capacity := by decide
  have many : capacity < declared long := by decide
  refine ⟨⟨whole, fits, ?_⟩, ⟨whole', many, (read_exactly.1 long).2.1 whole' many⟩,
    ⟨fewer, ?_⟩, by decide, read_exactly.2 _ (by decide)⟩
  · obtain ⟨path, written, read, count, wrote, -, same, zeros, others⟩ :=
      (read_exactly.1 record).2.2 whole fits
    exact ⟨path, written, read, count, wrote, same, zeros,
      (others _).mpr ⟨sized _ 1020 7 rfl, rfl⟩⟩
  · have refused := (read_exactly.1 short).1 fewer
    rw [List.length_replicate] at refused
    exact refused

end PenDrawing.Record
