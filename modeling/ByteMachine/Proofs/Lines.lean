import ByteMachine.Text.Blank
import ByteMachine.Text.Line
import Mathlib.Data.List.DropRight
import Mathlib.Data.List.TakeWhile
/-!
# Lines, and texts without their ends

What it means that a text is made of certain lines, that a text begins with another one
up to a mark, and that it is another one with blanks around it. All three are relations
between texts, put together from their parts, and `lines`, `takeWhile` and `trim` find
the one text or the one list of texts that the relation allows.

## Main statements

- `lines_eq_iff`: the lines of a text are those that it is made of.
- `takeWhile_eq_iff`: what comes before a mark.
- `trim_eq_iff`: a text without the blanks at its ends.
-/

namespace ByteMachine.Text

/-! ## Lines -/

/-- `Lined text lines` says that the text is made of the lines. -/
inductive Lined : List Char → List (List Char) → Prop
  | nil : Lined [] []
  /-- The last line needs no terminator, but it is no line if it is empty then. -/
  | last {line : List Char} : line ≠ [] → '\n' ∉ line → Lined line [line]
  | lineFeed {line rest : List Char} {lines : List (List Char)} :
      '\n' ∉ line → line.getLast? ≠ some '\r' → Lined rest lines →
      Lined (line ++ '\n' :: rest) (line :: lines)
  /-- A carriage return right before the line feed belongs to the terminator. -/
  | carriageReturn {line rest : List Char} {lines : List (List Char)} :
      '\n' ∉ line → Lined rest lines → Lined (line ++ '\r' :: '\n' :: rest) (line :: lines)

/-- A character that ends no line is the first one of the first line. -/
theorem lines_cons {c : Char} {rest line : List Char} {others : List (List Char)}
    (hfeed : c ≠ '\n') (hreturn : c = '\r' → rest.head? ≠ some '\n')
    (hrest : lines rest = line :: others) : lines (c :: rest) = (c :: line) :: others := by
  rw [lines.eq_4 c rest]
  · rw [hrest]
  · rintro tail rfl rfl
    exact hreturn rfl rfl
  · exact hfeed

/-- A character that ends no line may be put in front of the first line. -/
theorem Lined.cons {c : Char} {rest line : List Char} {others : List (List Char)}
    (hfeed : c ≠ '\n') (hreturn : c = '\r' → rest.head? ≠ some '\n')
    (h : Lined rest (line :: others)) : Lined (c :: rest) ((c :: line) :: others) := by
  have hmem (hline : '\n' ∉ line) : '\n' ∉ c :: line := by
    rw [List.mem_cons]
    rintro (rfl | hfound)
    · exact hfeed rfl
    · exact hline hfound
  cases h with
  | last _ hline => exact .last (List.cons_ne_nil _ _) (hmem hline)
  | lineFeed hline hlast hrest =>
    refine .lineFeed (hmem hline) ?_ hrest
    -- The last character of the line is still the same, unless the line was empty.
    cases line with
    | nil =>
      intro hc
      exact hreturn (Option.some.inj hc) rfl
    | cons first tail =>
      rw [List.getLast?_cons_cons]
      exact hlast
  | carriageReturn hline hrest => exact .carriageReturn (hmem hline) hrest

theorem lined_lines (text : List Char) : Lined text (lines text) := by
  -- By the recursion of the function, one case for each of its equations.
  induction text using lines.induct with
  | case1 => exact .nil
  | case2 rest ih =>
    rw [lines.eq_2]
    exact .carriageReturn List.not_mem_nil ih
  | case3 rest ih =>
    rw [lines.eq_3]
    exact .lineFeed List.not_mem_nil (by simp) ih
  | case4 c rest _ hfeed hnone _ =>
    obtain rfl := lines_eq_nil_iff.mp hnone
    have hsingle : lines [c] = [[c]] := by
      rw [lines.eq_4 c [] (by simp) hfeed, lines_nil]
    rw [hsingle]
    refine .last (List.cons_ne_nil _ _) ?_
    rw [List.mem_singleton]
    exact Ne.symm hfeed
  | case5 c rest hreturn hfeed line others hsome ih =>
    have hbare : c = '\r' → rest.head? ≠ some '\n' := by
      intro hc hhead
      obtain ⟨tail, htail⟩ := List.head?_eq_some_iff.mp hhead
      exact hreturn tail hc htail
    rw [lines_cons hfeed hbare hsome]
    rw [hsome] at ih
    exact ih.cons hfeed hbare

theorem lines_append {line rest : List Char} {others : List (List Char)}
    (hline : '\n' ∉ line) (hlast : line.getLast? = some '\r' → rest.head? ≠ some '\n')
    (hrest : lines rest = [] :: others) : lines (line ++ rest) = line :: others := by
  induction line with
  | nil => exact hrest
  | cons c tail ih =>
    have hfeed : c ≠ '\n' := List.ne_of_not_mem_cons hline |>.symm
    have htail : '\n' ∉ tail := List.not_mem_of_not_mem_cons hline
    cases tail with
    | nil =>
      refine lines_cons hfeed ?_ hrest
      intro hc
      exact hlast (by rw [hc]; rfl)
    | cons d others =>
      -- The character behind the first one is of the same line.
      have hnext : d ≠ '\n' := List.ne_of_not_mem_cons htail |>.symm
      rw [List.getLast?_cons_cons] at hlast
      refine lines_cons hfeed ?_ (ih htail hlast)
      intro _ hhead
      exact hnext (Option.some.inj hhead)

theorem lines_of_not_mem {line : List Char} (hne : line ≠ []) (hline : '\n' ∉ line) :
    lines line = [line] := by
  induction line with
  | nil => exact absurd rfl hne
  | cons c tail ih =>
    have hfeed : c ≠ '\n' := List.ne_of_not_mem_cons hline |>.symm
    have htail : '\n' ∉ tail := List.not_mem_of_not_mem_cons hline
    cases tail with
    | nil => rw [lines.eq_4 c [] (by simp) hfeed, lines_nil]
    | cons d others =>
      have hnext : d ≠ '\n' := List.ne_of_not_mem_cons htail |>.symm
      refine lines_cons hfeed ?_ (ih (List.cons_ne_nil _ _) htail)
      intro _ hhead
      exact hnext (Option.some.inj hhead)

theorem lines_of_lined {text : List Char} {parts : List (List Char)} (h : Lined text parts) :
    lines text = parts := by
  induction h with
  | nil => exact lines_nil
  | last hne hline => exact lines_of_not_mem hne hline
  | lineFeed hline hlast _ ih =>
    refine lines_append hline (fun hreturn => absurd hreturn hlast) ?_
    rw [lines_newline, ih]
  | carriageReturn hline _ ih =>
    refine lines_append hline (fun _ => by simp) ?_
    rw [lines.eq_2, ih]

/-- **The lines of a text** are the ones that it is made of. -/
theorem lines_eq_iff {text : List Char} {parts : List (List Char)} :
    lines text = parts ↔ Lined text parts := by
  constructor
  · rintro rfl
    exact lined_lines text
  · exact lines_of_lined

/-! ## What comes before a mark -/

/-- `Before mark text start` says that the text begins with `start` and then either ends or
    goes on with the mark, which `start` does not hold. -/
def Before (mark : Char) (text start : List Char) : Prop :=
  mark ∉ start ∧ (text = start ∨ ∃ behind, text = start ++ mark :: behind)

theorem takeWhile_eq_iff {mark : Char} {text start : List Char} :
    text.takeWhile (· ≠ mark) = start ↔ Before mark text start := by
  constructor
  · rintro rfl
    refine ⟨?_, ?_⟩
    · intro hmem
      have hne := List.mem_takeWhile_imp hmem
      exact of_decide_eq_true hne rfl
    · -- The text goes on with the first character that is not taken.
      have happend := List.takeWhile_append_dropWhile (p := (· ≠ mark)) (l := text)
      cases hrest : text.dropWhile (· ≠ mark) with
      | nil =>
        left
        rw [hrest, List.append_nil] at happend
        exact happend.symm
      | cons c behind =>
        right
        have hhead := List.head?_dropWhile_not (· ≠ mark) text
        rw [hrest] at hhead
        have hc : c = mark := not_not.mp (of_decide_eq_false hhead)
        rw [hrest, hc] at happend
        exact ⟨behind, happend.symm⟩
  · rintro ⟨hmark, hends⟩
    have hne : ∀ c ∈ start, decide (c ≠ mark) = true := by
      intro c hmem
      refine decide_eq_true ?_
      rintro rfl
      exact hmark hmem
    rcases hends with rfl | ⟨behind, rfl⟩
    · exact List.takeWhile_eq_self_iff.mpr hne
    · rw [List.takeWhile_append_of_pos hne]
      simp

/-! ## Texts without blanks at their ends -/

/-- `Trimmed text core` says that the text is `core` with blanks before and behind it, and
    that `core` begins and ends with no blank. -/
structure Trimmed (text core : List Char) : Prop where
  around : ∃ front back, text = front ++ core ++ back ∧ (∀ c ∈ front, isBlank c = true) ∧
    ∀ c ∈ back, isBlank c = true
  first : ∀ c ∈ core.head?, isBlank c = false
  last : ∀ c ∈ core.getLast?, isBlank c = false

theorem trim_eq (text : List Char) :
    trim text = (text.dropWhile isBlank).rdropWhile isBlank := rfl

theorem trimmed_trim (text : List Char) : Trimmed text (trim text) where
  around := by
    -- What is dropped in front and what is dropped behind.
    refine ⟨text.takeWhile isBlank, (text.dropWhile isBlank).rtakeWhile isBlank, ?_, ?_, ?_⟩
    · rw [trim_eq, List.append_assoc, List.rdropWhile_append_rtakeWhile,
        List.takeWhile_append_dropWhile]
    · intro c hmem
      exact List.mem_takeWhile_imp hmem
    · intro c hmem
      exact List.mem_rtakeWhile_imp hmem
  first := by
    intro c hc
    -- What is dropped behind does not change the first character.
    obtain ⟨back, hback⟩ := List.rdropWhile_prefix isBlank (text.dropWhile isBlank)
    have hhead := List.head?_dropWhile_not isBlank text
    rw [← hback, List.head?_append, ← trim_eq, Option.mem_def.mp hc] at hhead
    exact hhead
  last := by
    intro c hc
    obtain ⟨hne, rfl⟩ := List.mem_getLast?_eq_getLast hc
    exact Bool.eq_false_iff.mpr (List.rdropWhile_last_not isBlank _ hne)

theorem dropWhile_append_of_head? {p : Char → Bool} {front core : List Char}
    (hfront : ∀ c ∈ front, p c = true) (hcore : ∀ c ∈ core.head?, p c = false) :
    (front ++ core).dropWhile p = core := by
  rw [List.dropWhile_append_of_pos hfront]
  cases core with
  | nil => rfl
  | cons c rest => exact List.dropWhile_cons_of_neg (Bool.eq_false_iff.mp (hcore c rfl))

theorem trim_of_trimmed {text core : List Char} (h : Trimmed text core) : trim text = core := by
  obtain ⟨⟨front, back, rfl, hfront, hback⟩, hfirst, hlast⟩ := h
  unfold trim
  rw [List.append_assoc]
  cases core with
  | nil =>
    -- All characters are blanks, and the first pass drops them all.
    have hnone : back.dropWhile isBlank = [] := List.dropWhile_eq_nil_iff.mpr hback
    rw [List.dropWhile_append_of_pos hfront, List.nil_append, hnone]
    rfl
  | cons c rest =>
    have hstart : ∀ d ∈ (c :: rest ++ back).head?, isBlank d = false := hfirst
    have hend : ∀ d ∈ (c :: rest).reverse.head?, isBlank d = false := by
      rw [List.head?_reverse]
      exact hlast
    have hbehind : ∀ d ∈ back.reverse, isBlank d = true := by
      intro d hmem
      exact hback d (List.mem_reverse.mp hmem)
    rw [dropWhile_append_of_head? hfront hstart, List.reverse_append,
      dropWhile_append_of_head? hbehind hend, List.reverse_reverse]

/-- **A text without blanks at its ends** is the one that blanks around make the text of. -/
theorem trim_eq_iff {text core : List Char} : trim text = core ↔ Trimmed text core := by
  constructor
  · rintro rfl
    exact trimmed_trim text
  · exact trim_of_trimmed

end ByteMachine.Text
