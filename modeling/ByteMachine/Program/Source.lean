import ByteMachine.Program.Basic
import ByteMachine.Text.Blank
import ByteMachine.Text.Line
/-!
# Program texts

A program text has one memory cell a line: up to eight binary digits. What
follows a number sign is a comment, blanks around the digits do not count, and
a line that is empty without them holds no cell.

Every line is looked at before the cells are counted, so the first malformed
line is reported however many cells there are.
-/

namespace ByteMachine.Program

/-- What a line holds besides its comment and the blanks around it. -/
def code (line : List Char) : List Char :=
  Text.trim (line.takeWhile (· ≠ '#'))

/-- Whether a character is a binary digit. -/
def isBinaryDigit (c : Char) : Bool :=
  c = '0' || c = '1'

/-- The byte that up to eight binary digits stand for. -/
def literal? (digits : List Char) : Option UInt8 :=
  if digits.length ≤ 8 ∧ digits.all isBinaryDigit then
    some (UInt8.ofNat (Nat.ofDigitChars 2 digits 0))
  else none

/-- The bytes on the given lines, the first of which has the given number. -/
def readLines (number : Nat) : List (List Char) → Except LoadError (List UInt8)
  | [] => .ok []
  | line :: rest =>
    if code line = [] then readLines (number + 1) rest
    else
      match literal? (code line) with
      | none => .error (.malformedLiteral number (String.ofList (code line)))
      | some byte =>
        match readLines (number + 1) rest with
        | .ok bytes => .ok (byte :: bytes)
        | .error e => .error e

/-- The program that a text describes. -/
def parse (source : String) : Except LoadError Program :=
  match readLines 1 (Text.lines source.toList) with
  | .ok bytes => ofBytes bytes
  | .error e => .error e

/-! ## Lines without code -/

/-- A line without code does not change what is read, only the line numbers. -/
theorem readLines_of_code_eq_nil {line : List Char} (h : code line = []) (number : Nat)
    (rest : List (List Char)) :
    readLines number (line :: rest) = readLines (number + 1) rest := by
  simp [readLines, h]

end ByteMachine.Program
