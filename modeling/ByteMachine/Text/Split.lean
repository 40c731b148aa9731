/-!
# Parts of a text

A text cut at every occurrence of a separator. There is always one part more
than there are separators, so the empty text has one part, which is empty.
-/

namespace ByteMachine.Text

/-- The parts of a text between separators, in order. -/
def split (separator : Char) : List Char → List (List Char)
  | [] => [[]]
  | c :: rest =>
    if c = separator then [] :: split separator rest
    else
      match split separator rest with
      | [] => [[c]]
      | part :: others => (c :: part) :: others

/-- The parts of a text that are not empty, in order. -/
def parts (separator : Char) (text : List Char) : List (List Char) :=
  (split separator text).filter fun part => !part.isEmpty

/-! ## Putting the parts together -/

theorem split_ne_nil (separator : Char) (text : List Char) : split separator text ≠ [] := by
  fun_cases split separator text <;> simp

/-- The parts with a separator between any two of them are the text again. -/
theorem intercalate_split (separator : Char) (text : List Char) :
    [separator].intercalate (split separator text) = text := by
  induction text with
  | nil => rfl
  | cons c rest ih =>
    obtain ⟨part, others, h⟩ := List.exists_cons_of_ne_nil (split_ne_nil separator rest)
    rw [h] at ih
    by_cases hc : c = separator
    · simp [split, hc, h, List.intercalate_cons_cons, ih]
    · cases others with
      | nil => simpa [split, hc, h] using ih
      | cons _ _ => simpa [split, hc, h, List.intercalate_cons_cons] using ih

end ByteMachine.Text
