import ByteMachine.Log.Pattern.Bracket
import ByteMachine.Text.Alphanumeric
/-!
# Patterns

The value of a field in a rule may be a pattern, a regular expression for texts.
Nothing that is logged has such fields, so all that counts of a pattern is whether
it is one: a rule with a mistake in its pattern is a mistake in the filter.

A pattern is a choice between sequences of parts. A part is a symbol, a dot, a
bracket or a group, and may be followed by marks for repetition. Counts of
repetitions are not supported, as a brace would end the field.
-/

namespace ByteMachine.Log.Pattern

/-- A part of a sequence. -/
inductive Part where
  /-- A directive, which holds nothing and cannot be repeated. -/
  | directive
  /-- Anything else, with its depth. -/
  | proper (depth : Nat)
deriving DecidableEq, Repr

/-- The depth of a part. -/
def Part.depth : Part → Nat
  | directive => 0
  | proper depth => depth

/-- A group that is still open, or the whole of the pattern. -/
structure OpenGroup where
  /-- The modes that hold again behind the group. -/
  outside : Modes := {}
  /-- The depths of the sequences that are complete, last one first. -/
  sequences : List Nat := []
  /-- The parts of the sequence at the end, last one first. -/
  parts : List Part := []
deriving DecidableEq, Repr

namespace OpenGroup

/-- The depth of the sequence at the end. -/
def sequenceDepth (group : OpenGroup) : Nat :=
  depthOfAll (group.parts.map Part.depth)

/-- The depth of what the group holds. -/
def choiceDepth (group : OpenGroup) : Nat :=
  depthOfAll (group.sequenceDepth :: group.sequences)

/-- The group with one more part. -/
def add (group : OpenGroup) (part : Part) : OpenGroup :=
  { group with parts := part :: group.parts }

/-- The group with a new sequence begun. -/
def alternate (group : OpenGroup) : OpenGroup :=
  { group with sequences := group.sequenceDepth :: group.sequences, parts := [] }

/-- The group with its last part repeated. -/
def repeatLast? (group : OpenGroup) : Option OpenGroup :=
  match group.parts with
  | .proper depth :: others =>
    some { group with parts := .proper (depthAround depth) :: others }
  | _ => none

end OpenGroup

/-- What has been read of a pattern. -/
structure Reader where
  modes : Modes := {}
  /-- The innermost open group, or the whole pattern. -/
  group : OpenGroup := {}
  /-- What is open around it, from the inside out. -/
  outer : List OpenGroup := []
  /-- The names of groups so far. -/
  names : List (List Char) := []
deriving DecidableEq, Repr

namespace Reader

/-- The reader behind a part. -/
def add (reader : Reader) (part : Part) : Reader :=
  { reader with group := reader.group.add part }

/-! ## Groups -/

/-- The reader inside of a new group, with modes of the group's own. -/
def openGroup (reader : Reader) (modes : Modes) : Reader :=
  { reader with
    modes
    group := { outside := reader.modes }
    outer := reader.group :: reader.outer }

/-- The reader behind the group that it is in. -/
def closeGroup? (reader : Reader) : Option Reader :=
  match reader.outer with
  | [] => none
  | next :: outer =>
    some { reader with
      modes := reader.group.outside
      group := next.add (.proper (depthAround reader.group.choiceDepth))
      outer }

/-- Whether the characters may be the name of a group. -/
def isGroupName : List Char → Bool
  | [] => false
  | c :: rest =>
    (c = '_' || Text.isAlphabetic c) &&
      rest.all fun c => c = '_' || c = '.' || c = '[' || c = ']' || Text.isAlphanumeric c

/-- Reads the name of a group behind its angle bracket. -/
def readNamedGroup? (reader : Reader) (text : List Char) : Option (Reader × List Char) :=
  let name := text.takeWhile (· ≠ '>')
  match text.dropWhile (· ≠ '>') with
  | '>' :: rest =>
    if isGroupName name && !reader.names.contains name then
      some ({ reader with names := name :: reader.names }.openGroup reader.modes, rest)
    else none
  | _ => none

/-- Reads a directive behind its question mark. A directive with a closing bracket
    holds from there on, and one with a colon opens a group and holds in it. -/
def readDirective? (reader : Reader) (text : List Char) : Option (Reader × List Char) := do
  let directive := text.takeWhile fun c => c ≠ ':' ∧ c ≠ ')'
  let modes ← reader.modes.after? directive
  match text.dropWhile fun c => c ≠ ':' ∧ c ≠ ')' with
  | ':' :: rest => return (reader.openGroup modes, rest)
  | ')' :: rest =>
    if directive.isEmpty then none else return ({ reader with modes }.add .directive, rest)
  | _ => none

/-- Reads the opening of a group, or a directive, behind the bracket. -/
def readOpening? (reader : Reader) (text : List Char) : Option (Reader × List Char) :=
  match reader.modes.skip text with
  -- Conditions on what comes before or behind are not supported.
  | '?' :: '<' :: '=' :: _ | '?' :: '<' :: '!' :: _ => none
  | '?' :: 'P' :: '<' :: rest | '?' :: '<' :: rest => reader.readNamedGroup? rest
  | '?' :: rest => reader.readDirective? rest
  | rest => some (reader.openGroup reader.modes, rest)

/-! ## Reading -/

/-- Reads a symbol outside of brackets. -/
def readSymbol? (reader : Reader) (text : List Char) : Option (Reader × List Char) := do
  let (symbol, rest) ← Symbol.readLiteral? reader.modes text
  if symbol.isSupported reader.modes then return (reader.add (.proper 0), rest) else none

/-- Reads a mark for repetition, and the one behind it that asks for the fewest. -/
def readRepetition? (reader : Reader) (rest : List Char) : Option (Reader × List Char) :=
  reader.group.repeatLast?.map fun group =>
    ({ reader with group }, if rest.head? = some '?' then rest.tail else rest)

/-- Reads on from a character. -/
def step? (reader : Reader) (c : Char) (rest : List Char) : Option (Reader × List Char) :=
  match c with
  | '(' => reader.readOpening? rest
  | ')' => reader.closeGroup?.map fun reader => (reader, rest)
  | '|' => some ({ reader with group := reader.group.alternate }, rest)
  | '[' =>
    (readBracket? reader.modes rest).map fun (depth, rest) => (reader.add (.proper depth), rest)
  | '?' | '*' | '+' => reader.readRepetition? rest
  | '\x7b' => none
  | '^' | '$' => some (reader.add (.proper 0), rest)
  -- In byte mode a dot would fit bytes that are no text.
  | '.' => if reader.modes.unicode then some (reader.add (.proper 0), rest) else none
  | _ => reader.readSymbol? (c :: rest)

/-- Reads to the end of a text. Every step takes a character, so that as many steps
    as there are characters are enough. -/
def readAll? : (steps : Nat) → Reader → List Char → Option Reader
  | steps, reader, text =>
    match reader.modes.skip text, steps with
    | [], _ => some reader
    | _ :: _, 0 => none
    | c :: rest, steps + 1 => do
      let (reader, rest) ← reader.step? c rest
      readAll? steps reader rest

/-- Whether nothing is missing and the pattern is not too deep. -/
def isComplete (reader : Reader) : Bool :=
  reader.outer.isEmpty && reader.group.choiceDepth ≤ depthLimit

end Reader

end ByteMachine.Log.Pattern

namespace ByteMachine.Log

/-- Whether a text is a pattern. -/
def isPattern (text : List Char) : Bool :=
  (Pattern.Reader.readAll? text.length {} text).any Pattern.Reader.isComplete

/-! ## Small patterns -/

example : isPattern "(?P<n>[^a-z&&b]*|c)".toList = true := by decide +kernel

example : isPattern "(a|*)".toList = false := by decide +kernel

example : isPattern "[z-a]".toList = false := by decide +kernel

end ByteMachine.Log
