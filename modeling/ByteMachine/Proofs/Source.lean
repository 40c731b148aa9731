import ByteMachine.Program.Source
import ByteMachine.Proofs.Lines
import Mathlib.Data.List.Forall2
import Mathlib.Tactic.Ring
/-!
# What a program text describes

A program text is described without the functions that read it: it is made of lines, each
line has a code, and a code is nothing, a literal or malformed. From this follows what
reading gives, for every text: the first malformed code with the number of its line, too
many cells, or the program.

## Main statements

- `hasCodes_iff`: the codes of a text are those of its lines.
- `readLines_of_malformed`, `readLines_of_forall`: what the lines with these codes give.
- `parse_eq_described`: reading gives what the text describes.
-/

namespace ByteMachine.Program

/-! ## The code of a line -/

/-- `HasCode line text` says that `text` is what the line holds before its first number
    sign, without the blanks around it. -/
def HasCode (line text : List Char) : Prop :=
  ∃ start, Text.Before '#' line start ∧ Text.Trimmed start text

theorem code_eq_iff {line text : List Char} : code line = text ↔ HasCode line text := by
  constructor
  · intro h
    exact ⟨_, Text.takeWhile_eq_iff.mp rfl, Text.trim_eq_iff.mp h⟩
  · rintro ⟨start, hbefore, htrimmed⟩
    rw [← Text.takeWhile_eq_iff] at hbefore
    rw [← Text.trim_eq_iff] at htrimmed
    unfold code
    rw [hbefore, htrimmed]

/-- `HasCodes text codes` says that the lines of the text have these codes, in order. -/
def HasCodes (text : List Char) (codes : List (List Char)) : Prop :=
  ∃ lines, Text.Lined text lines ∧ List.Forall₂ HasCode lines codes

theorem forall₂_hasCode_iff {lines codes : List (List Char)} :
    List.Forall₂ HasCode lines codes ↔ codes = lines.map code := by
  constructor
  · intro h
    induction h with
    | nil => rfl
    | cons hcode _ ih => rw [List.map_cons, code_eq_iff.mpr hcode, ih]
  · rintro rfl
    rw [List.forall₂_map_right_iff, List.forall₂_same]
    intro line _
    exact code_eq_iff.mp rfl

theorem hasCodes_iff {text : List Char} {codes : List (List Char)} :
    HasCodes text codes ↔ codes = (Text.lines text).map code := by
  constructor
  · rintro ⟨lines, hlined, hcodes⟩
    rw [Text.lines_eq_iff.mpr hlined]
    exact forall₂_hasCode_iff.mp hcodes
  · intro h
    exact ⟨_, Text.lined_lines text, forall₂_hasCode_iff.mpr h⟩

/-! ## Literals -/

/-- A literal is one to eight binary digits. -/
def IsLiteral (text : List Char) : Prop :=
  1 ≤ text.length ∧ text.length ≤ 8 ∧ ∀ c ∈ text, c = '0' ∨ c = '1'

/-- A code that is there has to be a literal. -/
def Malformed (text : List Char) : Prop :=
  text ≠ [] ∧ ¬ IsLiteral text

/-- The number that binary digits stand for: each digit 1 counts for the power of two of
    its position. -/
def binaryValue : List Char → Nat
  | [] => 0
  | digit :: rest => (if digit = '1' then 2 ^ rest.length else 0) + binaryValue rest

theorem binaryValue_lt (digits : List Char) : binaryValue digits < 2 ^ digits.length := by
  induction digits with
  | nil => exact Nat.one_pos
  | cons digit rest ih =>
    rw [binaryValue, List.length_cons, Nat.pow_succ]
    split
    · omega
    · omega

theorem ofDigitChars_eq {digits : List Char} (h : ∀ c ∈ digits, c = '0' ∨ c = '1')
    (start : Nat) :
    Nat.ofDigitChars 2 digits start = start * 2 ^ digits.length + binaryValue digits := by
  -- By the digits, first to last, so the value so far has to be any.
  induction digits generalizing start with
  | nil => simp [Nat.ofDigitChars, binaryValue]
  | cons digit rest ih =>
    have hrest : ∀ c ∈ rest, c = '0' ∨ c = '1' := fun c hmem => h c (List.mem_cons_of_mem _ hmem)
    rw [Nat.ofDigitChars_cons, ih hrest, binaryValue, List.length_cons, Nat.pow_succ]
    rcases h digit (List.mem_cons_self ..) with rfl | rfl
    · have hzero : '0'.toNat - '0'.toNat = 0 := by decide
      have hne : ¬ '0' = '1' := by decide
      rw [hzero, if_neg hne]
      ring
    · have hone : '1'.toNat - '0'.toNat = 1 := by decide
      rw [hone, if_pos rfl]
      ring

theorem all_isBinaryDigit_iff {text : List Char} :
    text.all isBinaryDigit = true ↔ ∀ c ∈ text, c = '0' ∨ c = '1' := by
  simp [List.all_eq_true, isBinaryDigit]

theorem literal?_of_isLiteral {text : List Char} (h : IsLiteral text) :
    ∃ byte, literal? text = some byte ∧ byte.toNat = binaryValue text := by
  obtain ⟨_, hlength, hdigits⟩ := h
  have hlt : binaryValue text < 256 :=
    (binaryValue_lt text).trans_le (Nat.pow_le_pow_right (by decide) hlength)
  refine ⟨_, if_pos ⟨hlength, all_isBinaryDigit_iff.mpr hdigits⟩, ?_⟩
  rw [ofDigitChars_eq hdigits, Nat.zero_mul, Nat.zero_add, UInt8.toNat_ofNat']
  exact Nat.mod_eq_of_lt hlt

theorem literal?_of_malformed {text : List Char} (h : Malformed text) :
    literal? text = none := by
  refine if_neg ?_
  rintro ⟨hlength, hdigits⟩
  exact h.2 ⟨List.length_pos_iff.mpr h.1, hlength, all_isBinaryDigit_iff.mp hdigits⟩

theorem eq_nil_or_isLiteral {text : List Char} (h : ¬ Malformed text) :
    text = [] ∨ IsLiteral text := by
  by_cases hnil : text = []
  · exact .inl hnil
  · right
    by_contra hliteral
    exact h ⟨hnil, hliteral⟩

/-! ## Reading lines -/

/-- A literal puts its byte in front of what the other lines give. -/
theorem readLines_of_isLiteral {line : List Char} (h : IsLiteral (code line)) (number : Nat)
    (rest : List (List Char)) :
    ∃ byte, byte.toNat = binaryValue (code line) ∧
      readLines number (line :: rest) = (readLines (number + 1) rest).map (byte :: ·) := by
  obtain ⟨byte, hbyte, hvalue⟩ := literal?_of_isLiteral h
  have hne : code line ≠ [] := List.length_pos_iff.mp h.1
  refine ⟨byte, hvalue, ?_⟩
  rw [readLines, if_neg hne]
  simp only [hbyte]
  cases readLines (number + 1) rest with
  | ok bytes => rfl
  | error reason => rfl

/-- The first malformed line is reported, whatever comes behind it. -/
theorem readLines_of_malformed {good : List (List Char)} {bad : List Char}
    (hgood : ∀ line ∈ good, ¬ Malformed (code line)) (hbad : Malformed (code bad))
    (number : Nat) (rest : List (List Char)) :
    readLines number (good ++ bad :: rest) =
      .error (.malformedLiteral (number + good.length) (String.ofList (code bad))) := by
  -- By the lines before it; each of them moves the number on by one.
  induction good generalizing number with
  | nil =>
    rw [List.nil_append, readLines, if_neg hbad.1]
    simp only [literal?_of_malformed hbad, List.length_nil, Nat.add_zero]
  | cons line others ih =>
    have hrest := ih (fun other hmem => hgood other (List.mem_cons_of_mem _ hmem)) (number + 1)
    have hnumber : number + 1 + others.length = number + (line :: others).length := by
      rw [List.length_cons]
      omega
    rw [hnumber] at hrest
    rw [List.cons_append]
    rcases eq_nil_or_isLiteral (hgood line (List.mem_cons_self ..)) with hnil | hliteral
    · rw [readLines_of_code_eq_nil hnil, hrest]
    · obtain ⟨byte, -, hread⟩ := readLines_of_isLiteral hliteral number (others ++ bad :: rest)
      rw [hread, hrest]
      rfl

/-- Lines that are all good give the bytes of their literals. -/
theorem readLines_of_forall {lines : List (List Char)}
    (hgood : ∀ line ∈ lines, ¬ Malformed (code line)) (number : Nat) :
    ∃ bytes, readLines number lines = .ok bytes ∧
      bytes.map UInt8.toNat = ((lines.map code).filter (· ≠ [])).map binaryValue := by
  induction lines generalizing number with
  | nil => exact ⟨[], rfl, rfl⟩
  | cons line others ih =>
    obtain ⟨bytes, hrest, hvalues⟩ :=
      ih (fun other hmem => hgood other (List.mem_cons_of_mem _ hmem)) (number + 1)
    rcases eq_nil_or_isLiteral (hgood line (List.mem_cons_self ..)) with hnil | hliteral
    · refine ⟨bytes, ?_, ?_⟩
      · rw [readLines_of_code_eq_nil hnil, hrest]
      · rw [hvalues, List.map_cons, List.filter_cons_of_neg (by simpa using hnil)]
    · obtain ⟨byte, hbyte, hread⟩ := readLines_of_isLiteral hliteral number others
      have hne : code line ≠ [] := List.length_pos_iff.mp hliteral.1
      refine ⟨byte :: bytes, ?_, ?_⟩
      · rw [hread, hrest]
        rfl
      · rw [List.map_cons, hbyte, hvalues, List.map_cons,
          List.filter_cons_of_pos (by simpa using hne), List.map_cons]

/-! ## Reading a text -/

/-- **Reading gives what the text describes.** The lines of a text have their codes, and
    only these. If one of the codes is malformed, reading gives the first such code and the
    number of its line, from one on. Otherwise the codes that are not empty are literals; if
    there are more than memory has cells, reading gives their number, and if not, it gives
    the program with their values, in order. -/
theorem parse_eq_described (source : String) :
    ∃ codes : List (List Char),
      (∀ other, HasCodes source.toList other ↔ other = codes) ∧
      (∀ index bad, codes[index]? = some bad → Malformed bad →
        (∀ earlier ∈ codes.take index, ¬ Malformed earlier) →
        parse source = .error (.malformedLiteral (index + 1) (String.ofList bad))) ∧
      ((∀ text ∈ codes, ¬ Malformed text) →
        (256 < (codes.filter (· ≠ [])).length →
          parse source = .error (.tooLarge (codes.filter (· ≠ [])).length 256)) ∧
        ((codes.filter (· ≠ [])).length ≤ 256 →
          ∃ program, parse source = .ok program ∧
            program.bytes.map UInt8.toNat = (codes.filter (· ≠ [])).map binaryValue)) := by
  refine ⟨(Text.lines source.toList).map code, fun other => hasCodes_iff, ?_, ?_⟩
  · intro index bad hindex hbad hearlier
    rw [List.getElem?_map] at hindex
    obtain ⟨line, hline, rfl⟩ := Option.map_eq_some_iff.mp hindex
    obtain ⟨hlt, rfl⟩ := List.getElem?_eq_some_iff.mp hline
    -- The lines are cut at the malformed one.
    have hcut := List.take_append_drop index (Text.lines source.toList)
    rw [List.drop_eq_getElem_cons hlt] at hcut
    have hgood : ∀ earlier ∈ (Text.lines source.toList).take index,
        ¬ Malformed (code earlier) := by
      intro earlier hmem
      apply hearlier
      rw [← List.map_take]
      exact List.mem_map_of_mem hmem
    have hread := readLines_of_malformed hgood hbad 1 ((Text.lines source.toList).drop (index + 1))
    rw [hcut, List.length_take_of_le hlt.le, Nat.add_comm] at hread
    unfold parse
    simp only [hread]
  · intro hgood
    have hlines : ∀ line ∈ Text.lines source.toList, ¬ Malformed (code line) := by
      intro line hmem
      exact hgood _ (List.mem_map_of_mem hmem)
    obtain ⟨bytes, hread, hvalues⟩ := readLines_of_forall hlines 1
    have hlength : bytes.length =
        (((Text.lines source.toList).map code).filter (· ≠ [])).length := by
      simpa only [List.length_map] using congrArg List.length hvalues
    rw [← hlength]
    unfold parse
    simp only [hread]
    refine ⟨?_, ?_⟩
    · intro hlarge
      exact dif_neg (Nat.not_le.mpr hlarge)
    · intro hfits
      exact ⟨⟨bytes, hfits⟩, dif_pos hfits, hvalues⟩

/-- A blank line counts, and a comment and the blanks before it are not reported. -/
example : parse "\n\t102 # 2\r\n1" = .error (.malformedLiteral 2 "102") := by decide +kernel

end ByteMachine.Program
