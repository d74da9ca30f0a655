import PenDrawing.Proofs.Lettering.Letter
import PenDrawing.Proofs.Payload

/-!
# Texts that are written

A text is written letter by letter behind what is there already.  As every letter ends with the
lifted pen, what is added does not depend on what is there, and the drawing of a text is the letters
behind one another, each put down by itself (`letters`, `addLetters_eq`).

* The letters alone decide what becomes of a text: they have so many points, and nothing else fails
  than what is looked at before them (`length_write`).
* The drawing of a text is tidy, and its strokes are those of its letters, so that none reaches from
  one letter to another (`strokes_write`).
-/

namespace PenDrawing.Lettering

/-! ## Letters behind one another -/

/-- The points of letters that are the `n`-th and the following of so many. -/
def letters (length n : Nat) (cs : List Char) : List Point :=
  (cs.zipIdx n).flatMap fun (c, i) => letter length i c

theorem letters_cons (length n : Nat) (c : Char) (cs : List Char) :
    letters length n (c :: cs) = letter length n c ++ letters length (n + 1) cs := by
  rw [letters, List.zipIdx_cons, List.flatMap_cons]
  rfl

theorem mem_alphabet_of_find? {text : List Char} (h : text.find? (· ∉ alphabet) = none) :
    ∀ c ∈ text, c ∈ alphabet := by
  intro c hc
  have known := List.find?_eq_none.mp h c hc
  rwa [decide_eq_true_eq, not_not] at known

/-- Letters are put behind a drawing up to the first character that cannot be written. -/
theorem addLetters_eq (length n : Nat) (cs : List Char) {drawing : List Point}
    (lifted : Lifted drawing) :
    addLetters length n cs drawing =
      match cs.find? (· ∉ alphabet) with
      | some c => .error (.unsupported c)
      | none => .ok (drawing ++ letters length n cs) := by
  induction cs generalizing n drawing with
  | nil =>
      show Except.ok drawing = .ok (drawing ++ [])
      rw [List.append_nil]
  | cons c rest ih =>
      rw [addLetters]
      cases found : glyph? c with
      | none =>
          have other : decide (c ∉ alphabet) = true :=
            decide_eq_true (glyph?_eq_none_iff.mp found)
          rw [List.find?_cons_of_pos (p := fun d => decide (d ∉ alphabet)) other]
      | some list =>
          have known : c ∈ alphabet := by
            by_contra other
            rw [glyph?_eq_none_iff.mpr other] at found
            cases found
          have alone : addLetter [] (slot length n) list = letter length n c := by
            rw [letter, steps, found]
            rfl
          have after : Lifted (addLetter drawing (slot length n) list) := lifted_liftAtEnd _
          show addLetters length (n + 1) rest (addLetter drawing (slot length n) list) = _
          rw [ih (n + 1) after, List.find?_cons_of_neg (by simpa using known),
            addLetter_eq_append lifted, alone, letters_cons, List.append_assoc]

/-- What becomes of a text: one that is not too long and has letters only is written as these
letters, if their points are not too many. -/
theorem write_eq (text : List Char) :
    write text =
      if maxLength < text.length then .error (.tooLong text.length)
      else
        match text.find? (· ∉ alphabet) with
        | some c => .error (.unsupported c)
        | none =>
          if Record.capacity < (letters text.length 0 text).length then
            .error (.tooManyPoints ⟨(letters text.length 0 text).length⟩)
          else .ok ⟨letters text.length 0 text⟩ := by
  rw [write, addLetters_eq text.length 0 text lifted_nil, List.nil_append]
  cases text.find? (· ∉ alphabet) with
  | none => rfl
  | some c => rfl

/-- A text that is written is not too long, has letters only, and is written as these letters, which
have no more points than a record holds. -/
theorem eq_letters_of_write {text : List Char} {path : Path} (h : write text = .ok path) :
    text.length ≤ maxLength ∧ (∀ c ∈ text, c ∈ alphabet) ∧
      path.points = letters text.length 0 text ∧ path.length ≤ Record.capacity := by
  rw [write_eq] at h
  by_cases long : maxLength < text.length
  · rw [if_pos long] at h
    cases h
  · rw [if_neg long] at h
    cases found : text.find? (· ∉ alphabet) with
    | some c =>
        rw [found] at h
        cases h
    | none =>
        rw [found] at h
        by_cases many : Record.capacity < (letters text.length 0 text).length
        · simp only [if_pos many] at h
          cases h
        · simp only [if_neg many] at h
          cases h
          exact ⟨Nat.le_of_not_lt long, mem_alphabet_of_find? found, rfl, Nat.le_of_not_lt many⟩

/-! ## How many points -/

/-- The points of a text: ten for each `A`, twelve for each `B` and seven for each `C`. -/
def pointCount (text : List Char) : Nat :=
  10 * text.count 'A' + 12 * text.count 'B' + 7 * text.count 'C'

theorem pointCount_cons (c : Char) (cs : List Char) :
    pointCount (c :: cs) = pointCount [c] + pointCount cs := by
  simp only [pointCount, List.count_cons, List.count_nil]
  omega

theorem length_letter_eq {length n : Nat} (h : n < maxLength) {c : Char} (mem : c ∈ alphabet) :
    (letter length n c).length = pointCount [c] := by
  rw [length_letter h]
  rcases mem_alphabet.mp mem with rfl | rfl | rfl | rfl <;> rfl

/-- A text takes as many points as are counted for it. -/
theorem length_letters (length : Nat) {n : Nat} {cs : List Char}
    (fits : n + cs.length ≤ maxLength) (known : ∀ c ∈ cs, c ∈ alphabet) :
    (letters length n cs).length = pointCount cs := by
  induction cs generalizing n with
  | nil => rfl
  | cons c rest ih =>
      rw [List.length_cons] at fits
      rw [letters_cons, List.length_append, pointCount_cons,
        length_letter_eq (by omega) (known c List.mem_cons_self),
        ih (by omega) fun d hd => known d (List.mem_cons_of_mem c hd)]

/-- What becomes of a text, by its length and the number of each letter. -/
def outcome (text : List Char) : Except Error Nat :=
  if 26 < text.length then .error (.tooLong text.length)
  else
    match text.find? (· ∉ ['A', 'B', 'C', ' ']) with
    | some c => .error (.unsupported c)
    | none =>
      if 256 < pointCount text then .error (.tooManyPoints ⟨pointCount text⟩)
      else .ok (pointCount text)

/-- **Which texts are written.**  A text of more than 26 characters is too long, whatever they are.
Otherwise the first character that is neither a letter nor a space is why it cannot be written.  If
there is none, its points are too many if they are more than 256; and otherwise the text is written,
with just so many points, and has a payload. -/
theorem length_write (text : List Char) :
    (write text).map Path.length = outcome text ∧
    ∀ path, write text = .ok path → ∀ compress, ∃ payload,
      Payload.encodeWith compress path = .ok payload := by
  constructor
  · rw [write_eq, outcome]
    by_cases long : 26 < text.length
    · rw [if_pos long, if_pos (show maxLength < text.length from long)]
      rfl
    · rw [if_neg long, if_neg (show ¬ maxLength < text.length from long)]
      cases found : text.find? (· ∉ alphabet) with
      | some c =>
          rw [show text.find? (· ∉ ['A', 'B', 'C', ' ']) = some c from found]
          rfl
      | none =>
          rw [show text.find? (· ∉ ['A', 'B', 'C', ' ']) = none from found]
          have fits : 0 + text.length ≤ maxLength := by
            have limit : maxLength = 26 := rfl
            omega
          have count := length_letters text.length fits (mem_alphabet_of_find? found)
          simp only [count]
          by_cases many : 256 < pointCount text
          · rw [if_pos many, if_pos (show Record.capacity < pointCount text from many)]
            rfl
          · rw [if_neg many, if_neg (show ¬ Record.capacity < pointCount text from many)]
            exact congrArg Except.ok count
  · intro path written compress
    obtain ⟨-, -, -, fits⟩ := eq_letters_of_write written
    obtain ⟨record, -, packed⟩ := Payload.pack_of_le compress fits
    exact ⟨_, Payload.encodeWith_of_pack packed⟩

/-- Two letters and a space between them have 19 points. -/
theorem length_write_two_letters :
    ∃ path, write "B C".toList = .ok path ∧ path.length = 19 ∧
      ∃ payload, Payload.encodeWith Zlib.store path = .ok payload := by
  obtain ⟨count, fits⟩ := length_write "B C".toList
  rw [show outcome "B C".toList = .ok 19 by decide] at count
  cases written : write "B C".toList with
  | error cause =>
      rw [written] at count
      cases count
  | ok path =>
      rw [written] at count
      exact ⟨path, rfl, Except.ok.inj count, fits path written Zlib.store⟩

example : outcome (List.replicate 26 'B') = .error (.tooManyPoints ⟨312⟩) := by decide

example : outcome (List.replicate 27 '?') = .error (.tooLong 27) := by decide

/-! ## Strokes of texts -/

/-- The points of a text are tidy. -/
theorem tidy_letters (length : Nat) {n : Nat} {cs : List Char}
    (fits : n + cs.length ≤ maxLength) : Tidy (letters length n cs) := by
  induction cs generalizing n with
  | nil => exact tidy_nil
  | cons c rest ih =>
      rw [List.length_cons] at fits
      rw [letters_cons]
      exact (tidy_letter (by omega) c).append (ih (by omega))

/-- The strokes of a text are those of its letters, one letter after another. -/
theorem strokesOf_letters (length : Nat) {n : Nat} {cs : List Char}
    (fits : n + cs.length ≤ maxLength) :
    Path.strokesOf (letters length n cs) =
      (cs.zipIdx n).flatMap fun (c, i) => letterStrokes length i c := by
  induction cs generalizing n with
  | nil => exact Path.strokesOf_nil
  | cons c rest ih =>
      rw [List.length_cons] at fits
      have here : n < maxLength := by omega
      rw [letters_cons, Path.strokesOf_append (tidy_letter here c).ends, strokesOf_letter here,
        ih (by omega), List.zipIdx_cons, List.flatMap_cons]

/-- The numbers of points in the strokes of a letter. -/
def strokeSizes : Char → List Nat
  | 'A' => [6, 2]
  | 'B' => [6, 4]
  | 'C' => [6]
  | _ => []

/-- The strokes of a letter have the sizes of those of its glyph. -/
theorem length_letterStrokes (length n : Nat) {c : Char} (mem : c ∈ alphabet) :
    (letterStrokes length n c).map List.length = strokeSizes c := by
  have sizes : (letterStrokes length n c).map List.length =
      (Text.runs (!·.isLift) (steps c)).map List.length := by
    rw [letterStrokes, List.map_map]
    exact List.map_congr_left fun run _ => List.length_map _
  rw [sizes]
  rcases mem_alphabet.mp mem with rfl | rfl | rfl | rfl <;> rfl

theorem length_strokes_letters (length n : Nat) {cs : List Char}
    (known : ∀ c ∈ cs, c ∈ alphabet) :
    ((cs.zipIdx n).flatMap fun (c, i) => letterStrokes length i c).map List.length =
      cs.flatMap strokeSizes := by
  induction cs generalizing n with
  | nil => rfl
  | cons c rest ih =>
      rw [List.zipIdx_cons, List.flatMap_cons, List.map_append, List.flatMap_cons,
        length_letterStrokes length n (known c List.mem_cons_self),
        ih (n + 1) fun d hd => known d (List.mem_cons_of_mem c hd)]

/-- **Letters are separate strokes.**  What is drawn of a text is off the first row and column of
the grid.  Its drawing does not begin with the lifted pen, never has it twice in a row, and ends with
it unless there is nothing at all.  Its strokes are those of its letters in their order, each in its
place: of six points and of two for an `A`, of six and of four for a `B`, of six for a `C`, and none
for a space. -/
theorem strokes_write {text : List Char} {path : Path} (written : write text = .ok path) :
    (∀ p ∈ path.points, p.isPenUp = false → 1 ≤ p.x ∧ 1 ≤ p.y) ∧
    path.points.head? ≠ some Point.penUp ∧
    ¬ [Point.penUp, Point.penUp] <:+: path.points ∧
    (path.points ≠ [] → path.points.getLast? = some Point.penUp) ∧
    path.strokes = text.zipIdx.flatMap (fun (c, n) => letterStrokes text.length n c) ∧
    path.strokes.map List.length = text.flatMap strokeSizes := by
  obtain ⟨short, known, points, -⟩ := eq_letters_of_write written
  have fits : 0 + text.length ≤ maxLength := by omega
  have tidy : Tidy path.points := by
    rw [points]
    exact tidy_letters text.length fits
  have strokes : path.strokes =
      text.zipIdx.flatMap (fun (c, n) => letterStrokes text.length n c) := by
    rw [Path.strokes, points]
    exact strokesOf_letters text.length fits
  refine ⟨tidy.drawn, ?_, ?_, ?_, strokes, ?_⟩
  · intro first
    cases tidy.begins Point.penUp first
  · intro twice
    have pair := List.IsChain.infix tidy.apart twice
    rcases List.isChain_pair.mp pair with down | down <;> cases down
  · intro some
    have last := List.getLast?_eq_some_getLast some
    rw [last, (Point.isPenUp_iff _).mp (tidy.ends _ last)]
  · rw [strokes]
    exact length_strokes_letters text.length 0 known

/-- A `C` and an `A` with a space before each of them are three strokes. -/
theorem strokes_write_two_letters :
    ∃ path, write " C A".toList = .ok path ∧ path.strokes.map List.length = [6, 6, 2] ∧
      path.points.getLast? = some Point.penUp := by
  have known : " C A".toList.find? (· ∉ alphabet) = none := by decide
  have count : (letters 4 0 " C A".toList).length = 17 :=
    length_letters 4 (by decide) (mem_alphabet_of_find? known)
  have few : ¬ Record.capacity < (letters 4 0 " C A".toList).length := by
    rw [count]
    decide
  have written : write " C A".toList = .ok ⟨letters 4 0 " C A".toList⟩ := by
    rw [write_eq, known, if_neg (by decide)]
    exact if_neg few
  obtain ⟨-, -, -, ends, -, sizes⟩ := strokes_write written
  refine ⟨_, written, sizes, ends ?_⟩
  exact List.ne_nil_of_length_pos (by rw [count]; decide)

end PenDrawing.Lettering
