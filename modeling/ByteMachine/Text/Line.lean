/-!
# Lines of a text

A line ends with a line feed, or with a carriage return and a line feed; the
terminator is not part of the line. A last line without terminator counts, and
nothing follows the last terminator, so the empty text has no line at all. A
carriage return that no line feed follows stays in its line.
-/

namespace ByteMachine.Text

/-- The lines of a text, in order. -/
def lines : List Char → List (List Char)
  | [] => []
  | '\r' :: '\n' :: rest => [] :: lines rest
  | '\n' :: rest => [] :: lines rest
  | c :: rest =>
    match lines rest with
    | [] => [[c]]
    | line :: others => (c :: line) :: others

/-! ## Small cases -/

@[simp] theorem lines_nil : lines [] = [] := by
  simp [lines]

@[simp] theorem lines_newline (rest : List Char) :
    lines ('\n' :: rest) = [] :: lines rest := by
  simp [lines]

/-- Only the empty text has no line. -/
theorem lines_eq_nil_iff {text : List Char} : lines text = [] ↔ text = [] := by
  fun_cases lines text <;> simp_all

end ByteMachine.Text
