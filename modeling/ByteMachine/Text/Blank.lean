/-!
# Blank characters

The characters with the Unicode property `White_Space`, and the removal of
them from both ends of a text. Core's `Char.isWhitespace` knows only four of
the twenty-five; each of those four is blank here as well.
-/

namespace ByteMachine.Text

/-- The ranges of code points with the property `White_Space`, ends included. -/
def blankRanges : List (Nat × Nat) :=
  [(0x0009, 0x000D), (0x0020, 0x0020), (0x0085, 0x0085), (0x00A0, 0x00A0),
   (0x1680, 0x1680), (0x2000, 0x200A), (0x2028, 0x2029), (0x202F, 0x202F),
   (0x205F, 0x205F), (0x3000, 0x3000)]

/-- A character is blank if its code point lies in one of the ranges. -/
def isBlank (c : Char) : Bool :=
  blankRanges.any fun (low, high) => low ≤ c.toNat && c.toNat ≤ high

/-- A text without the blanks at its two ends. -/
def trim (text : List Char) : List Char :=
  ((text.dropWhile isBlank).reverse.dropWhile isBlank).reverse

/-- A text of blanks alone, the empty text included. -/
def allBlank (text : String) : Bool :=
  text.toList.all isBlank

/-! ## Laws -/

/-- The table holds twenty-five characters. -/
theorem blankRanges_count :
    (blankRanges.flatMap fun (low, high) => List.range' low (high + 1 - low)).length = 25 := by
  decide

/-- Every character of core's narrower class is blank. -/
theorem isBlank_of_isWhitespace {c : Char} (h : c.isWhitespace = true) :
    isBlank c = true := by
  simp only [Char.isWhitespace, Bool.or_eq_true, decide_eq_true_eq] at h
  rcases h with ((rfl | rfl) | rfl) | rfl <;> decide

end ByteMachine.Text
