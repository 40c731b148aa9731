/-!
# Numerals

Padded positional numerals for listings, traces and error messages: hexadecimal
in upper case and binary. Unpadded decimal numerals are those of `Nat.repr`.

Padding never shortens a numeral, so a value that needs more digits than the
width shows all of them.

The other way round, the parts that the notations for numbers have in common:
digits, exponents, and the decimal notation of real numbers at large.
-/

namespace ByteMachine.Numeral

/-- The digits of `n` in the given base, most significant first and in upper
    case, with zeros in front up to `width` characters. -/
def padded (base width n : Nat) : List Char :=
  ((Nat.toDigits base n).map Char.toUpper).leftpad width '0'

/-- A hexadecimal numeral of at least two digits. -/
def hex (n : Nat) : String :=
  String.ofList (padded 16 2 n)

/-- A hexadecimal numeral of at least two digits, marked as such by `0x`. -/
def markedHex (n : Nat) : String :=
  "0x" ++ hex n

/-- A binary numeral of at least eight digits, marked as such by `0b`. -/
def markedBinary (n : Nat) : String :=
  "0b" ++ String.ofList (padded 2 8 n)

/-! ## Widths -/

theorem length_padded (base width n : Nat) :
    (padded base width n).length = max width (Nat.toDigits base n).length := by
  simp only [padded, List.length_leftpad, List.length_map]

/-! ## Reading -/

/-- The value of a hexadecimal digit. -/
def hexValue? (c : Char) : Option Nat :=
  if c.isDigit then some (c.toNat - '0'.toNat)
  else if 'a' ≤ c ∧ c ≤ 'f' then some (c.toNat - 'a'.toNat + 10)
  else if 'A' ≤ c ∧ c ≤ 'F' then some (c.toNat - 'A'.toNat + 10)
  else none

/-- Whether the characters are one digit or more. -/
def areDigits (cs : List Char) : Bool :=
  !cs.isEmpty && cs.all Char.isDigit

/-- Whether the characters are an exponent or nothing. -/
def isExponent : List Char → Bool
  | [] => true
  | mark :: '+' :: digits => (mark == 'e' || mark == 'E') && areDigits digits
  | mark :: '-' :: digits => (mark == 'e' || mark == 'E') && areDigits digits
  | mark :: digits => (mark == 'e' || mark == 'E') && areDigits digits

/-- Whether the characters are a decimal fraction without a sign, with an exponent or
    without. There are digits before the point or behind it. -/
def isUnsignedReal (cs : List Char) : Bool :=
  let whole := cs.takeWhile Char.isDigit
  match cs.dropWhile Char.isDigit with
  | '.' :: rest =>
    !(whole.isEmpty && (rest.takeWhile Char.isDigit).isEmpty) &&
      isExponent (rest.dropWhile Char.isDigit)
  | rest => !whole.isEmpty && isExponent rest

/-- Whether the characters are the name of a number that has no digits. -/
def isNumberName (cs : List Char) : Bool :=
  ["inf", "infinity", "nan"].contains (String.ofList (cs.map Char.toLower))

/-- Whether the characters are a real number, with a sign or without. -/
def isReal (cs : List Char) : Bool :=
  let magnitude := if cs.head? == some '+' || cs.head? == some '-' then cs.tail else cs
  isUnsignedReal magnitude || isNumberName magnitude

end ByteMachine.Numeral
