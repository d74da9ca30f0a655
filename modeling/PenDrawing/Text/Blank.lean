/-!
# Blank characters

Two classes of blanks are in use. Around a payload and between the words of a header every
character of the Unicode property `White_Space` counts, and inside a payload only the five that
ASCII texts are wrapped with.

* **`isBlank`** and **`isWrap`** are the two classes; **`isBlank_of_isWrap`** says that the second
  one lies in the first.
* **`trimBlank`** cuts blanks off both ends of a text.
-/

namespace PenDrawing.Text

/-- The property `White_Space`. -/
def isBlank (c : Char) : Bool :=
  let n := c.toNat
  (9 ≤ n && n ≤ 13) || n == 0x20 || n == 0x85 || n == 0xA0 || n == 0x1680 ||
    (0x2000 ≤ n && n ≤ 0x200A) || n == 0x2028 || n == 0x2029 || n == 0x202F || n == 0x205F ||
    n == 0x3000

/-- The blanks that a text may be wrapped with: tab, line feed, form feed, carriage return and
space, but no vertical tab. -/
def isWrap (c : Char) : Bool :=
  let n := c.toNat
  n == 9 || n == 10 || n == 12 || n == 13 || n == 32

/-- What wraps a text is blank. -/
theorem isBlank_of_isWrap {c : Char} (h : isWrap c = true) : isBlank c = true := by
  simp only [isWrap, isBlank, Bool.or_eq_true, Bool.and_eq_true, beq_iff_eq,
    decide_eq_true_eq] at *
  omega

/-- The text without the blanks it begins with. -/
def trimLeft (cs : List Char) : List Char := cs.dropWhile isBlank

/-- The text without the blanks it ends with. -/
def trimRight (cs : List Char) : List Char := (cs.reverse.dropWhile isBlank).reverse

/-- The text without the blanks at its two ends. -/
def trimBlank (cs : List Char) : List Char := trimRight (trimLeft cs)

end PenDrawing.Text
