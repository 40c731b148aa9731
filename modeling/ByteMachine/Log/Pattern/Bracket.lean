import ByteMachine.Log.Pattern.Depth
import ByteMachine.Log.Pattern.Symbol
/-!
# Brackets in a pattern

A bracket is a class of characters written as its items: characters, ranges of
characters, named classes and brackets again. Two classes may stand in one bracket
with an operator between them, which is a doubled `&`, `-` or `~`.

The reader takes a bracket apart into tokens and keeps the brackets that are
still open in a list, so that each token is one step.
-/

namespace ByteMachine.Log.Pattern

/-- A token inside of a bracket. -/
inductive BracketToken where
  /-- An item that holds no other; `atStart` says that one more such item may follow
      as if it were the first. -/
  | item (atStart : Bool)
  | opening (negated : Bool)
  | operator
  | closing
deriving DecidableEq, Repr

/-- A bracket that is still open. -/
structure OpenBracket where
  /-- Whether the class is the complement of what is listed. -/
  negated : Bool
  /-- Whether there is nothing yet but dashes. -/
  isStart : Bool := true
  /-- The depth of what stands before the last operator. -/
  left : Option Nat := none
  /-- The depths of the items since then, last one first. -/
  items : List Nat := []
deriving DecidableEq, Repr

namespace OpenBracket

/-- The depth of the class that the bracket holds so far. -/
def classDepth (bracket : OpenBracket) : Nat :=
  match bracket.left with
  | none => depthOfAll bracket.items
  | some left => depthAround (max left (depthOfAll bracket.items))

/-- The depth of the bracket. -/
def depth (bracket : OpenBracket) : Nat :=
  depthAround bracket.classDepth

/-- The bracket with one more item. -/
def add (bracket : OpenBracket) (depth : Nat) (isStart : Bool) : OpenBracket :=
  { bracket with items := depth :: bracket.items, isStart }

/-- The bracket behind an operator: all of it so far is on the left. -/
def operate (bracket : OpenBracket) : OpenBracket :=
  { bracket with left := some bracket.classDepth, items := [], isStart := false }

/-- Whether the bracket may be closed: in byte mode a complement would hold bytes
    that are no text. -/
def mayClose (modes : Modes) (bracket : OpenBracket) : Bool :=
  modes.unicode || !bracket.negated

end OpenBracket

namespace BracketToken

/-! ## Reading tokens -/

/-- The names of the classes of ASCII characters. -/
def classNames : List String :=
  ["alnum", "alpha", "ascii", "blank", "cntrl", "digit", "graph", "lower", "print", "punct",
    "space", "upper", "word", "xdigit"]

/-- Reads a named class such as `[:alpha:]` behind its bracket: whether it is the
    complement, and the rest. -/
def readNamedClass? : List Char → Option (Bool × List Char)
  | ':' :: text =>
    let complement := text.head? == some '^'
    let text := if complement then text.tail else text
    match text.dropWhile (· ≠ ':') with
    | ':' :: ']' :: rest =>
      if classNames.contains (String.ofList (text.takeWhile (· ≠ ':'))) then
        some (complement, rest)
      else none
    | _ => none
  | _ => none

/-- Whether a named class is supported. -/
def supportsNamedClass (modes : Modes) (complement : Bool) : Bool :=
  if modes.unicode then !modes.caseless else !complement

/-- Reads a character or lettered class, or a range of characters. -/
def readItem? (modes : Modes) (text : List Char) : Option (BracketToken × List Char) := do
  let (first, rest) ← Symbol.readLiteral? modes text
  if !first.isSupportedInBrackets modes then none
  match modes.skip rest with
  | '-' :: behind =>
    let next := modes.peek behind
    -- This dash is an item of its own or belongs to an operator.
    if next = some ']' ∨ next = some '-' then return (.item false, '-' :: behind)
    let (last, rest) ← Symbol.readLiteral? modes (modes.skip behind)
    let low ← first.char?
    let high ← last.char?
    if last.isSupportedInBrackets modes && low ≤ high then return (.item false, rest) else none
  | rest => return (.item false, rest)

/-- Reads the opening of a bracket behind the bracket itself. -/
def readOpening (modes : Modes) (text : List Char) : Bool × List Char :=
  match modes.skip text with
  | '^' :: rest => (true, rest)
  | rest => (false, rest)

/-- Whether a character is an item although it is a mark elsewhere in a bracket:
    dashes at the start, and a closing bracket that is the first of all. -/
def isItemAtStart (bracket : OpenBracket) (c : Char) : Bool :=
  bracket.isStart && (c = '-' || c = ']' && bracket.items.isEmpty)

/-- Reads the next token of a bracket. -/
def read? (modes : Modes) (bracket : OpenBracket) (text : List Char) :
    Option (BracketToken × List Char) :=
  match modes.skip text with
  | [] => none
  | c :: rest =>
    if isItemAtStart bracket c then
      if !(Symbol.plain c).isSupportedInBrackets modes then none
      else some (.item (c = '-'), rest)
    else if c = ']' then some (.closing, rest)
    else if (c = '&' ∨ c = '-' ∨ c = '~') ∧ rest.head? = some c then
      some (.operator, rest.tail)
    else if c = '[' then
      match readNamedClass? rest with
      | some (complement, rest) =>
        if supportsNamedClass modes complement then some (.item false, rest) else none
      | none =>
        let (negated, rest) := readOpening modes rest
        some (.opening negated, rest)
    else readItem? modes (c :: rest)

end BracketToken

namespace OpenBracket

/-! ## Reading brackets -/

/-- Reads on to the end of the outermost bracket: its depth, and the rest. The
    brackets around the innermost one come from the inside out. No token is empty,
    so that as many steps as there are characters are enough. -/
def readOn? (modes : Modes) :
    (steps : Nat) → OpenBracket → List OpenBracket → List Char → Option (Nat × List Char)
  | 0, _, _, _ => none
  | steps + 1, bracket, outer, text => do
    let (token, rest) ← BracketToken.read? modes bracket text
    match token, outer with
    | .item atStart, _ => readOn? modes steps (bracket.add 0 atStart) outer rest
    | .operator, _ => readOn? modes steps bracket.operate outer rest
    | .opening negated, _ => readOn? modes steps { negated } (bracket :: outer) rest
    | .closing, [] => if bracket.mayClose modes then return (bracket.depth, rest) else none
    | .closing, next :: outer =>
      if bracket.mayClose modes then
        readOn? modes steps (next.add bracket.depth false) outer rest
      else none

end OpenBracket

/-- Reads a bracket whose first character is read: its depth, and the rest. -/
def readBracket? (modes : Modes) (text : List Char) : Option (Nat × List Char) :=
  let (negated, rest) := BracketToken.readOpening modes text
  OpenBracket.readOn? modes text.length { negated } [] rest

end ByteMachine.Log.Pattern
