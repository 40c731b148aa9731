import ByteMachine.Log.Pattern.Modes
import ByteMachine.Numeral
/-!
# Symbols of a pattern

The smallest things in a pattern: a character that stands for itself, a class of
characters with a letter of its own, and a place between characters. A backslash
gives some characters one of these meanings and takes another meaning from
others.

Patterns are about text, and they come without tables of Unicode. So what would
need a table is not supported, nor what could fit bytes that are no text: outside
of byte mode caseless characters, lettered classes and the boundaries of words;
in byte mode bytes beyond ASCII and the complements of classes.
-/

namespace ByteMachine.Log.Pattern

/-- A symbol of a pattern. -/
inductive Symbol where
  /-- A character, which may be written as the two digits of a byte. -/
  | literal (c : Char) (asByte : Bool)
  /-- A class with a letter, such as the digits, or its complement. -/
  | letteredClass (complement : Bool)
  /-- The start or the end of the text. -/
  | edge
  /-- A place between characters that depends on where words begin and end. -/
  | boundary
deriving DecidableEq, Repr

namespace Symbol

/-- A character that stands for itself. -/
def plain (c : Char) : Symbol :=
  .literal c false

/-! ## Support -/

/-- Whether a symbol is supported outside of brackets. -/
def isSupported (modes : Modes) : Symbol → Bool
  | literal c asByte =>
    if modes.unicode then !modes.caseless else !(asByte && 0x7F < c.toNat)
  | letteredClass complement => !modes.unicode && !complement
  | edge => true
  | boundary => !modes.unicode

/-- Whether a symbol is supported as an item in brackets. Places are none. -/
def isSupportedInBrackets (modes : Modes) : Symbol → Bool
  | literal c _ => if modes.unicode then !modes.caseless else c.toNat ≤ 0x7F
  | letteredClass complement => !modes.unicode && !complement
  | edge | boundary => false

/-- The character of a symbol that is one. -/
def char? : Symbol → Option Char
  | literal c _ => some c
  | _ => none

/-! ## Backslashes -/

/-- Reads hexadecimal digits, `count` of them, behind those of `value`. -/
def readDigits? (modes : Modes) : (count value : Nat) → List Char → Option (Nat × List Char)
  | 0, value, text => some (value, text)
  | count + 1, value, text =>
    match modes.skip text with
    | [] => none
    | c :: rest =>
      (Numeral.hexValue? c).bind fun digit => readDigits? modes count (16 * value + digit) rest

/-- Reads the code point of a character in hexadecimal digits, `count` of them. -/
def readCodePoint? (modes : Modes) (count : Nat) (text : List Char) :
    Option (Symbol × List Char) := do
  let (value, rest) ← readDigits? modes count 0 text
  if Nat.isValidChar value then return (.literal (Char.ofNat value) (count = 2), rest) else none

/-- The symbol that a backslash makes of a single character. Of the characters of
    ASCII all but letters, digits and angle brackets stand for themselves. -/
def escaped? (c : Char) : Option Symbol :=
  match c with
  | 'a' => some (plain '\x07')
  | 'f' => some (plain '\x0c')
  | 'n' => some (plain '\n')
  | 'r' => some (plain '\r')
  | 't' => some (plain '\t')
  | 'v' => some (plain '\x0b')
  | 'd' | 's' | 'w' => some (.letteredClass false)
  | 'D' | 'S' | 'W' => some (.letteredClass true)
  | 'A' | 'z' => some .edge
  | 'b' | 'B' | '<' | '>' => some .boundary
  | c => if c.toNat ≤ 0x7F && !c.isAlphanum then some (plain c) else none

/-- Reads the symbol behind a backslash. -/
def readEscaped? (modes : Modes) : List Char → Option (Symbol × List Char)
  | [] => none
  | 'x' :: rest => readCodePoint? modes 2 rest
  | 'u' :: rest => readCodePoint? modes 4 rest
  | 'U' :: rest => readCodePoint? modes 8 rest
  | c :: rest => (escaped? c).map fun symbol => (symbol, rest)

/-- Reads a symbol where every character but the backslash stands for itself. -/
def readLiteral? (modes : Modes) : List Char → Option (Symbol × List Char)
  | [] => none
  | '\x5c' :: rest => readEscaped? modes rest
  | c :: rest => some (plain c, rest)

end Symbol

end ByteMachine.Log.Pattern
