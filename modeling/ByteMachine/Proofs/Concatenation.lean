import ByteMachine.Proofs.Source
/-!
# Texts one after the other

A program text with a line feed behind it and another text behind that is read in two parts. The
line feed ends the last line of the first text, if it has one that is not ended yet, and otherwise
it ends an empty line; a carriage return at the end of the first text comes to belong to the
terminator. None of this matters to the codes of the lines. So the two texts are read as they are
on their own, but for the line numbers of the second one, and only the cells of both together have
to fit.

## Main definitions

- `reading`: what the lines of a text give before their cells are counted.
- `Denotes`: the bytes that the literals of a text stand for.

## Main statements

- `exists_closed`: the lines of a text that a line feed ends.
- `reading_append`: what two texts give one after the other.
- `parse_append`: the same of programs and errors.
-/

namespace ByteMachine

/-- The error that is reported when so many lines come before the text. -/
def LoadError.later (lines : Nat) : LoadError → LoadError
  | malformedLiteral line text => malformedLiteral (line + lines) text
  | e => e

namespace Program

/-! ## The lines of a text that is ended -/

/-- A carriage return at the end of a line is a blank at the end of its code, or a part of its
    comment. -/
theorem code_concat_return (line : List Char) : code (line ++ ['\r']) = code line := by
  unfold code
  rw [List.takeWhile_append]
  split
  · next hall =>
    have hwhole : line.takeWhile (· ≠ '#') = line :=
      (List.takeWhile_prefix _).eq_of_length hall
    obtain ⟨⟨front, back, htext, hfront, hback⟩, hfirst, hlast⟩ := Text.trimmed_trim line
    rw [hwhole]
    apply Text.trim_of_trimmed
    refine ⟨⟨front, back ++ ['\r'], ?_, hfront, ?_⟩, hfirst, hlast⟩
    · rw [← List.append_assoc, ← htext]
      rfl
    · intro c hmem
      rcases List.mem_append.mp hmem with hold | hnew
      · exact hback c hold
      · rw [List.mem_singleton.mp hnew]
        decide
  · rfl

/-- **A line feed ends the text.** Up to it there is a line for each line feed of the text and one
    more. The codes of these lines are those of the text, and at most an empty one. -/
theorem exists_closed {text : List Char} {lines : List (List Char)} (h : Text.Lined text lines) :
    ∃ closed : List (List Char), closed.length = text.count '\n' + 1 ∧
      (closed.map code = lines.map code ∨ closed.map code = (lines ++ [[]]).map code) ∧
      ∀ rest others, Text.Lined rest others →
        Text.Lined (text ++ '\n' :: rest) (closed ++ others) := by
  induction h with
  | nil =>
    refine ⟨[[]], rfl, .inr rfl, ?_⟩
    intro rest others hrest
    exact .lineFeed List.not_mem_nil (by simp) hrest
  | @last line hne hline =>
    have hcount : line.count '\n' = 0 := List.count_eq_zero.mpr hline
    by_cases hreturn : line.getLast? = some '\r'
    · -- The carriage return now belongs to the terminator.
      obtain ⟨front, rfl⟩ := List.getLast?_eq_some_iff.mp hreturn
      refine ⟨[front], by rw [hcount]; rfl, .inl ?_, ?_⟩
      · rw [List.map_singleton, List.map_singleton, code_concat_return]
      · intro rest others hrest
        rw [List.append_assoc]
        refine .carriageReturn ?_ hrest
        intro hmem
        exact hline (List.mem_append_left _ hmem)
    · refine ⟨[line], by rw [hcount]; rfl, .inl rfl, ?_⟩
      intro rest others hrest
      exact .lineFeed hline hreturn hrest
  | @lineFeed line behind _ hline hlast _ ih =>
    obtain ⟨closed, hlength, hcodes, hlined⟩ := ih
    refine ⟨line :: closed, ?_, ?_, ?_⟩
    · rw [List.length_cons, hlength, List.count_append, List.count_eq_zero.mpr hline,
        List.count_cons_self, Nat.zero_add]
    · simpa using hcodes
    · intro rest others hrest
      rw [List.append_assoc, List.cons_append]
      exact .lineFeed hline hlast (hlined rest others hrest)
  | @carriageReturn line behind _ hline _ ih =>
    obtain ⟨closed, hlength, hcodes, hlined⟩ := ih
    refine ⟨line :: closed, ?_, ?_, ?_⟩
    · rw [List.length_cons, hlength, List.count_append, List.count_eq_zero.mpr hline,
        List.count_cons_of_ne (by decide), List.count_cons_self, Nat.zero_add]
    · simpa using hcodes
    · intro rest others hrest
      rw [List.append_assoc, List.cons_append, List.cons_append]
      exact .carriageReturn hline (hlined rest others hrest)

/-! ## Reading lines in parts -/

theorem readLines_cons (number : Nat) (line : List Char) (rest : List (List Char)) :
    readLines number (line :: rest) =
      (readLines number [line]).bind fun bytes =>
        (readLines (number + 1) rest).map (bytes ++ ·) := by
  by_cases hnil : code line = []
  · rw [readLines_of_code_eq_nil hnil, readLines_of_code_eq_nil hnil]
    cases readLines (number + 1) rest <;> rfl
  · rw [readLines, readLines, if_neg hnil, if_neg hnil]
    cases literal? (code line) with
    | none => rfl
    | some byte => cases readLines (number + 1) rest <;> rfl

/-- Lines in two parts are read one part after the other; the first part moves the line numbers of
    the second one on. -/
theorem readLines_append (number : Nat) (first second : List (List Char)) :
    readLines number (first ++ second) =
      (readLines number first).bind fun bytes =>
        (readLines (number + first.length) second).map (bytes ++ ·) := by
  induction first generalizing number with
  | nil =>
    rw [List.nil_append, List.length_nil, Nat.add_zero]
    cases readLines number second <;> rfl
  | cons line rest ih =>
    have hnumber : number + (line :: rest).length = number + 1 + rest.length := by
      rw [List.length_cons]
      omega
    rw [List.cons_append, readLines_cons, ih, readLines_cons number line rest, hnumber]
    cases readLines number [line] with
    | error e => rfl
    | ok bytes =>
      cases readLines (number + 1) rest with
      | error e => rfl
      | ok more =>
        cases readLines (number + 1 + rest.length) second with
        | error e => rfl
        | ok others => simp [Except.bind, Except.map]

/-- Only the codes of lines matter. -/
theorem readLines_congr {first second : List (List Char)} (h : first.map code = second.map code)
    (number : Nat) : readLines number first = readLines number second := by
  induction first generalizing second number with
  | nil =>
    rw [List.map_nil, eq_comm, List.map_eq_nil_iff] at h
    rw [h]
  | cons line rest ih =>
    cases second with
    | nil => cases h
    | cons other others =>
      obtain ⟨hcode, hcodes⟩ := List.cons.inj h
      rw [readLines, readLines, hcode, ih hcodes]

/-- An empty line at the end changes nothing. -/
theorem readLines_concat_nil (number : Nat) (lines : List (List Char)) :
    readLines number (lines ++ [[]]) = readLines number lines := by
  have hnone : readLines (number + lines.length) [[]] = .ok [] := rfl
  rw [readLines_append, hnone]
  cases readLines number lines with
  | error e => rfl
  | ok bytes => simp [Except.bind, Except.map]

/-- Lines before the first one move on the number of the line that is reported. -/
theorem readLines_add (number before : Nat) (lines : List (List Char)) :
    readLines (number + before) lines =
      (readLines number lines).mapError (LoadError.later before) := by
  induction lines generalizing number with
  | nil => rfl
  | cons line rest ih =>
    have hnumber : number + before + 1 = number + 1 + before := by omega
    rw [readLines, readLines, hnumber, ih]
    by_cases hnil : code line = []
    · rw [if_pos hnil, if_pos hnil]
    · rw [if_neg hnil, if_neg hnil]
      cases literal? (code line) with
      | none => rfl
      | some byte => cases readLines (number + 1) rest <;> rfl

/-! ## Readings -/

/-- What the lines of a text give before their cells are counted. -/
def reading (text : List Char) : Except LoadError (List UInt8) :=
  readLines 1 (Text.lines text)

theorem parse_eq_bind (source : String) : parse source = (reading source.toList).bind ofBytes := by
  unfold parse reading
  cases readLines 1 (Text.lines source.toList) <;> rfl

/-- **Two texts with a line feed between them** give what the first one gives and then what the
    second one gives, with its line numbers moved on by the lines of the first. -/
theorem reading_append (first second : List Char) :
    reading (first ++ '\n' :: second) =
      (reading first).bind fun bytes =>
        ((reading second).mapError (LoadError.later (first.count '\n' + 1))).map (bytes ++ ·) := by
  obtain ⟨closed, hlength, hcodes, hlined⟩ := exists_closed (Text.lined_lines first)
  have hlines : Text.lines (first ++ '\n' :: second) = closed ++ Text.lines second :=
    Text.lines_of_lined (hlined _ _ (Text.lined_lines second))
  have hclosed : readLines 1 closed = reading first := by
    rcases hcodes with hsame | hempty
    · exact readLines_congr hsame 1
    · rw [readLines_congr hempty, readLines_concat_nil]
      rfl
  have hsecond := readLines_add 1 (first.count '\n' + 1) (Text.lines second)
  unfold reading at hclosed ⊢
  rw [hlines, readLines_append, hclosed, hlength, hsecond]

/-! ## What a text denotes -/

/-- `Denotes text bytes` says that no code of the text is malformed and that the bytes are the
    values of its literals, in order. How many there are does not matter. -/
def Denotes (text : List Char) (bytes : List UInt8) : Prop :=
  ∃ codes, HasCodes text codes ∧ (∀ code ∈ codes, ¬ Malformed code) ∧
    bytes.map UInt8.toNat = (codes.filter (· ≠ [])).map binaryValue

/-- Either all codes are good, or there is a first one that is malformed. -/
theorem forall_or_exists_malformed (lines : List (List Char)) :
    (∀ line ∈ lines, ¬ Malformed (code line)) ∨
      ∃ good bad rest, lines = good ++ bad :: rest ∧
        (∀ line ∈ good, ¬ Malformed (code line)) ∧ Malformed (code bad) := by
  induction lines with
  | nil => exact .inl (by simp)
  | cons line rest ih =>
    by_cases hbad : Malformed (code line)
    · exact .inr ⟨[], line, rest, rfl, by simp, hbad⟩
    · rcases ih with hall | ⟨good, bad, behind, rfl, hgood, hmalformed⟩
      · exact .inl (List.forall_mem_cons.mpr ⟨hbad, hall⟩)
      · exact .inr ⟨line :: good, bad, behind, rfl, List.forall_mem_cons.mpr ⟨hbad, hgood⟩,
          hmalformed⟩

/-- A reading gives the bytes that the text denotes, or it reports a malformed line. -/
theorem reading_cases (text : List Char) :
    (∃ bytes, reading text = .ok bytes ∧ Denotes text bytes) ∨
      ∃ line literal, reading text = .error (.malformedLiteral line literal) ∧
        ∀ bytes, ¬ Denotes text bytes := by
  rcases forall_or_exists_malformed (Text.lines text) with
    hall | ⟨good, bad, rest, hlines, hgood, hbad⟩
  · left
    obtain ⟨bytes, hread, hvalues⟩ := readLines_of_forall hall 1
    refine ⟨bytes, hread, _, hasCodes_iff.mpr rfl, ?_, hvalues⟩
    intro text hmem
    obtain ⟨line, hline, rfl⟩ := List.mem_map.mp hmem
    exact hall line hline
  · right
    refine ⟨_, _, (congrArg (readLines 1) hlines).trans (readLines_of_malformed hgood hbad 1 rest),
      ?_⟩
    rintro bytes ⟨codes, hcodes, hnone, -⟩
    rw [hasCodes_iff.mp hcodes, hlines] at hnone
    exact hnone (code bad) (List.mem_map_of_mem (by simp)) hbad

/-- **A reading gives just the bytes that the text denotes.** -/
theorem reading_eq_ok_iff {text : List Char} {bytes : List UInt8} :
    reading text = .ok bytes ↔ Denotes text bytes := by
  rcases reading_cases text with ⟨found, hread, hdenotes⟩ | ⟨line, literal, hread, hnone⟩
  · rw [hread, Except.ok.injEq]
    constructor
    · rintro rfl
      exact hdenotes
    · rintro ⟨codes, hcodes, -, hvalues⟩
      -- The codes of a text are unique, and a byte is known by its value.
      obtain ⟨others, hothers, -, hfound⟩ := hdenotes
      rw [hasCodes_iff.mp hothers, ← hasCodes_iff.mp hcodes, ← hvalues] at hfound
      exact List.map_injective_iff.mpr (fun _ _ => UInt8.toNat_inj.mp) hfound
  · rw [hread]
    constructor
    · intro h
      cases h
    · intro h
      exact absurd h (hnone bytes)

/-! ## Programs -/

variable {source literal : String} {line : Nat}

/-- To count the cells finds no malformed line. -/
theorem parse_eq_malformed_iff :
    parse source = .error (.malformedLiteral line literal) ↔
      reading source.toList = .error (.malformedLiteral line literal) := by
  rw [parse_eq_bind]
  cases reading source.toList with
  | error e => simp only [Except.bind, Except.error.injEq]
  | ok bytes =>
    simp only [Except.bind, ofBytes]
    split <;> simp

theorem exists_denotes
    (h : ∀ line literal, parse source ≠ .error (.malformedLiteral line literal)) :
    ∃ bytes, reading source.toList = .ok bytes ∧
      ∀ others, Denotes source.toList others ↔ others = bytes := by
  rcases reading_cases source.toList with ⟨bytes, hread, -⟩ | ⟨line, literal, hread, -⟩
  · refine ⟨bytes, hread, ?_⟩
    intro others
    rw [← reading_eq_ok_iff, hread, Except.ok.injEq, eq_comm]
  · exact absurd (parse_eq_malformed_iff.mpr hread) (h line literal)

/-- **Program texts are read part by part.** Take two texts with a line feed between them. A
    malformed line of the first one is reported as it is. If there is none, a malformed line of the
    second one is reported, with its number moved on by the line feeds of the first text and one
    more. If there is none either, each text denotes its bytes, whether or not these would fit into
    memory alone; reading then gives the program of all of them, unless they are more than memory
    has cells, in which case it gives their number. -/
theorem parse_append (first second : String) :
    (∀ line literal, parse first = .error (.malformedLiteral line literal) →
      parse (first ++ "\n" ++ second) = .error (.malformedLiteral line literal)) ∧
    ((∀ line literal, parse first ≠ .error (.malformedLiteral line literal)) →
      (∀ line literal, parse second = .error (.malformedLiteral line literal) →
        parse (first ++ "\n" ++ second) =
          .error (.malformedLiteral (line + (first.toList.count '\n' + 1)) literal)) ∧
      ((∀ line literal, parse second ≠ .error (.malformedLiteral line literal)) →
        ∃ u v : List UInt8,
          (∀ bytes, Denotes first.toList bytes ↔ bytes = u) ∧
          (∀ bytes, Denotes second.toList bytes ↔ bytes = v) ∧
          (256 < u.length + v.length →
            parse (first ++ "\n" ++ second) = .error (.tooLarge (u.length + v.length) 256)) ∧
          (u.length + v.length ≤ 256 →
            ∃ program, parse (first ++ "\n" ++ second) = .ok program ∧
              program.bytes = u ++ v))) := by
  have htext : (first ++ "\n" ++ second).toList = first.toList ++ '\n' :: second.toList := by
    simp [String.toList_append]
  have hreading := reading_append first.toList second.toList
  rw [← htext] at hreading
  refine ⟨?first, fun hfirst => ⟨?second, fun hsecond => ?both⟩⟩
  case first =>
    intro line literal hbad
    rw [parse_eq_malformed_iff] at hbad ⊢
    rw [hreading, hbad]
    rfl
  case second =>
    intro line literal hbad
    obtain ⟨u, hu, -⟩ := exists_denotes hfirst
    rw [parse_eq_malformed_iff] at hbad ⊢
    rw [hreading, hu, hbad]
    rfl
  case both =>
    obtain ⟨u, hu, hdenotes⟩ := exists_denotes hfirst
    obtain ⟨v, hv, hothers⟩ := exists_denotes hsecond
    have hparse : parse (first ++ "\n" ++ second) = ofBytes (u ++ v) := by
      rw [parse_eq_bind, hreading, hu, hv]
      rfl
    refine ⟨u, v, hdenotes, hothers, ?_, ?_⟩
    · intro hlarge
      rw [hparse, ofBytes, dif_neg (by simpa [Memory.capacity] using hlarge), List.length_append]
      rfl
    · intro hfits
      rw [← List.length_append] at hfits
      exact ⟨⟨u ++ v, hfits⟩, by rw [hparse]; exact dif_pos hfits, rfl⟩

/-- The first text ends in a line feed of its own, so the second text begins on its third line. -/
example :
    parse ("1 # one\n" ++ "\n" ++ "2") = .error (.malformedLiteral 3 "2") := by decide +kernel

end Program

end ByteMachine
