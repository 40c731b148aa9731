import ByteMachine.Json.Basic
import ByteMachine.Numeral
/-!
# Tokens of JSON

The text of a JSON value is a sequence of tokens: marks, quoted texts and the
words for the constants and numbers, with blanks between them as one likes. The
scanner takes one character at a time and moves between a few modes, so that
scanning is a fold over the text.

A character beyond the basic plane may be escaped as a pair of units; a unit of
such a pair that stands alone is refused, as it is no character.
-/

namespace ByteMachine.Json

/-- A token. -/
inductive Token where
  | openArray
  | closeArray
  | openObject
  | closeObject
  | comma
  | colon
  /-- A quoted text: a value, or the key of a member. -/
  | text (value : String)
  /-- A constant or a number. -/
  | word (value : Json)
deriving Repr

/-! ## Words -/

/-- Whether the characters are digits as an integer has them: without a zero in
    front, unless that is all. -/
def areWhole (cs : List Char) : Bool :=
  Numeral.areDigits cs && (cs.head? != some '0' || cs.length == 1)

/-- Whether the characters are what may follow the whole part of a number that
    is no integer: a fraction, an exponent or both. -/
def isRealTail : List Char → Bool
  | [] => false
  | '.' :: cs =>
    Numeral.areDigits (cs.takeWhile Char.isDigit) &&
      Numeral.isExponent (cs.dropWhile Char.isDigit)
  | cs => Numeral.isExponent cs

/-- The number that the characters spell. -/
def number? (cs : List Char) : Option Json :=
  let negative := cs.head? == some '-'
  let digits := if negative then cs.tail else cs
  let whole := digits.takeWhile Char.isDigit
  let rest := digits.dropWhile Char.isDigit
  if !areWhole whole then none
  else if isRealTail rest || (rest.isEmpty && negative && whole == ['0']) then
    some (real (String.ofList cs))
  else if rest.isEmpty then
    let magnitude := Nat.ofDigitChars 10 whole 0
    some (integer (if negative then -Int.ofNat magnitude else Int.ofNat magnitude))
  else none

/-- The constant or number that the characters spell. -/
def word? (cs : List Char) : Option Json :=
  if cs = ['n', 'u', 'l', 'l'] then some null
  else if cs = ['t', 'r', 'u', 'e'] then some (bool true)
  else if cs = ['f', 'a', 'l', 's', 'e'] then some (bool false)
  else number? cs

/-! ## The scanner -/

/-- Where in a token the scanner stands. The characters read so far come last
    one first. -/
inductive Mode where
  /-- Outside of texts and words. -/
  | between
  /-- In a word. -/
  | word (done : List Char)
  /-- In a quoted text. -/
  | text (done : List Char)
  /-- Behind a backslash in a quoted text. -/
  | escape (done : List Char)
  /-- In the number of an escaped unit, of which `count` digits are read; `high`
      is the first unit of a pair. -/
  | unit (done : List Char) (high : Option Nat) (count value : Nat)
  /-- Behind the first unit of a pair. -/
  | pair (done : List Char) (high : Nat)
  /-- Behind the backslash of the second unit of a pair. -/
  | pairEscape (done : List Char) (high : Nat)

/-- The token of a mark. -/
def mark? (c : Char) : Option Token :=
  if c = '[' then some .openArray
  else if c = ']' then some .closeArray
  else if c = '\x7b' then some .openObject
  else if c = '\x7d' then some .closeObject
  else if c = ',' then some .comma
  else if c = ':' then some .colon
  else none

/-- Whether a character may stand between tokens. -/
def isSpace (c : Char) : Bool :=
  c = ' ' || c = '\n' || c = '\r' || c = '\t'

/-- The character that a letter behind a backslash stands for. -/
def escape? (c : Char) : Option Char :=
  if c = '\x22' ∨ c = '\x5c' ∨ c = '/' then some c
  else if c = 'n' then some '\n'
  else if c = 'r' then some '\r'
  else if c = 't' then some '\t'
  else if c = 'b' then some '\x08'
  else if c = 'f' then some '\x0c'
  else none

/-- The mode behind a complete unit. -/
def Mode.afterUnit (done : List Char) (high : Option Nat) (value : Nat) : Option Mode :=
  let isHigh := 0xD800 ≤ value ∧ value < 0xDC00
  let isLow := 0xDC00 ≤ value ∧ value < 0xE000
  match high with
  | some first =>
    if isLow then
      let code := 0x10000 + (first - 0xD800) * 0x400 + (value - 0xDC00)
      some (.text (Char.ofNat code :: done))
    else none
  | none =>
    if isHigh then some (.pair done value)
    else if isLow then none
    else some (.text (Char.ofNat value :: done))

/-- Reads a character outside of texts and words, or the first one behind a word. -/
def Mode.readBetween (c : Char) : Mode × List Token :=
  if c = '\x22' then (.text [], [])
  else if isSpace c then (.between, [])
  else
    match mark? c with
    | some token => (.between, [token])
    | none => (.word [c], [])

/-- Whether a character ends a word. -/
def endsWord (c : Char) : Bool :=
  c = '\x22' || isSpace c || (mark? c).isSome

/-- Reads a character: the new mode, and the tokens that the character completes. -/
def Mode.read (c : Char) : Mode → Option (Mode × List Token)
  | between => some (readBetween c)
  | word done =>
    if endsWord c then do
      let value ← word? done.reverse
      let (mode, tokens) := readBetween c
      return (mode, .word value :: tokens)
    else some (.word (c :: done), [])
  | text done =>
    if c = '\x22' then some (.between, [.text (String.ofList done.reverse)])
    else if c = '\x5c' then some (.escape done, [])
    else if c.toNat < 0x20 then none
    else some (.text (c :: done), [])
  | escape done =>
    if c = 'u' then some (.unit done none 0 0, [])
    else (escape? c).map fun e => (.text (e :: done), [])
  | unit done high count value => do
    let digit ← Numeral.hexValue? c
    -- A unit has four digits; the fourth one completes it.
    if count < 3 then return (.unit done high (count + 1) (16 * value + digit), [])
    else
      let mode ← afterUnit done high (16 * value + digit)
      return (mode, [])
  | pair done high => if c = '\x5c' then some (.pairEscape done high, []) else none
  | pairEscape done high => if c = 'u' then some (.unit done (some high) 0 0, []) else none

/-- The scanner between two characters: its mode and the tokens so far, last one
    first. -/
structure Scanner where
  mode : Mode := .between
  tokens : List Token := []

/-- Reads a character. -/
def Scanner.read (scanner : Scanner) (c : Char) : Option Scanner :=
  (scanner.mode.read c).map fun (mode, tokens) =>
    ⟨mode, tokens.reverse ++ scanner.tokens⟩

/-- The tokens at the end of the text; a text must not end inside a quoted one. -/
def Scanner.finish (scanner : Scanner) : Option (List Token) :=
  match scanner.mode with
  | .between => some scanner.tokens.reverse
  | .word done => (word? done.reverse).map fun value => (.word value :: scanner.tokens).reverse
  | _ => none

/-- The tokens of a text. -/
def scan (text : List Char) : Option (List Token) := do
  let scanner ← text.foldlM Scanner.read {}
  scanner.finish

end ByteMachine.Json
