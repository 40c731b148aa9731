import ByteMachine.Log.Event
import ByteMachine.Log.Pattern.Basic
import ByteMachine.Text.Alphanumeric
import ByteMachine.Text.Blank
import ByteMachine.Text.Bytes
import ByteMachine.Text.Split
/-!
# Rules of a log filter

A rule is a level, a target, or both with an equals sign between them. A rule may
also name a span or a field in brackets, and the field may have a value, as in
`target[span{field=value}]=level`.

Blanks around a rule count for some purposes and not for others: where its
parts begin and end is found without the blanks in front, in bytes, but the
parts are then cut out of the rule as it stands. A cut may so go through a
character, and then reading breaks off.
-/

namespace ByteMachine.Log

/-- The levels that may pass: those up to a level, or none at all. -/
abbrev Threshold := Option Level

/-- Whether a level may pass. -/
def Level.passes (level : Level) : Threshold → Bool
  | none => false
  | some bound => level.rank ≤ bound.rank

/-- A rule of a filter. -/
structure Rule where
  /-- What the target must start with. -/
  target : List Char := []
  /-- A field that the event must have. -/
  field : Option (List Char) := none
  /-- Whether the rule is about spans or the values of fields, and so about no event. -/
  beyondEvents : Bool := false
  threshold : Threshold := some .trace
deriving DecidableEq, Repr

namespace Rule

/-! ## Thresholds -/

/-- The threshold that a word names, in upper or lower case. -/
def namedThreshold? (word : List Char) : Option Threshold :=
  match String.ofList (word.map Char.toLower) with
  | "off" => some none
  | "error" => some (some .error)
  | "warn" => some (some .warn)
  | "info" => some (some .info)
  | "debug" => some (some .debug)
  | "trace" => some (some .trace)
  | _ => none

/-- The threshold that a number stands for, from nought for none to five for all. -/
def numberedThreshold? (word : List Char) : Option Threshold :=
  let digits := if word.head? == some '+' then word.tail else word
  if digits.isEmpty || !digits.all Char.isDigit then none
  else
    match Nat.ofDigitChars 10 digits 0 with
    | 0 => some none
    | 1 => some (some .error)
    | 2 => some (some .warn)
    | 3 => some (some .info)
    | 4 => some (some .debug)
    | 5 => some (some .trace)
    | _ => none

/-- The threshold that a word or a number stands for. -/
def threshold? (word : List Char) : Option Threshold :=
  namedThreshold? word <|> numberedThreshold? word

/-- The threshold behind an equals sign; nothing there lets all levels pass. -/
def thresholdBehind? (word : List Char) : Option Threshold :=
  if word.isEmpty then some (some .trace) else threshold? word

/-! ## Parts of a rule -/

/-- Whether a rule may begin with a character. -/
def mayBegin (c : Char) : Bool :=
  c = '[' || c = '-' || c = ':' || c = '_' || Text.isAlphanumeric c

/-- What is read of a rule: nothing if reading breaks off, and nothing that is a rule if
    there is a mistake. -/
abbrev Reading := OptionT Option Rule

/-- The part of a rule between two positions. -/
def part (rule : List Char) (start stop : Nat) : OptionT Option (List Char) := do
  let (before, _) ← OptionT.lift (Text.cut? stop rule)
  let (_, part) ← OptionT.lift (Text.cut? start before)
  return part

/-- The part of a rule from a position on. -/
def partFrom (rule : List Char) (start : Nat) : OptionT Option (List Char) := do
  let (_, part) ← OptionT.lift (Text.cut? start rule)
  return part

/-- Whether a text may be the value of a field: a number or a pattern. The constants
    are patterns as well. -/
def isValue (text : List Char) : Bool :=
  Numeral.isReal text || isPattern text

/-- Adds a field to what is read of a rule. Its value ends where a second equals sign
    starts. -/
def withField? (read : Rule) (field : List Char) : Option Rule :=
  match Text.split '=' field with
  | name :: value :: _ =>
    if isValue value then some { read with field := some name, beyondEvents := true } else none
  | _ => if field.isEmpty then none else some { read with field := some field }

/-! ## Reading a rule -/

/-- Reads what follows the brackets, from the given position on. -/
def readBehindBrackets (rule rest : List Char) (position : Nat) (read : Rule) : Reading := do
  match rest with
  | [] => return read
  | '=' :: _ =>
    let word ← partFrom rule (position + 1)
    match thresholdBehind? word with
    | some threshold => return { read with threshold }
    | none => failure
  | _ => failure

/-- Reads a field in braces and what follows it, from behind the brace on. -/
def readField (rule rest : List Char) (position : Nat) (read : Rule) : Reading := do
  let field := rest.takeWhile (· ≠ '\x7d')
  let stop := position + Text.byteSize field
  match rest.dropWhile (· ≠ '\x7d') with
  | '\x7d' :: rest =>
    match read.withField? (← part rule position stop), rest with
    | some read, ']' :: rest => readBehindBrackets rule rest (stop + 2) read
    | _, _ => failure
  | _ => failure

/-- Reads the brackets and what follows them, from behind the bracket on. -/
def readBrackets (rule rest : List Char) (position : Nat) (read : Rule) : Reading := do
  let span := rest.takeWhile fun c => c ≠ ']' ∧ c ≠ '\x7b'
  let stop := position + Text.byteSize span
  match rest.drop span.length with
  | ']' :: rest =>
    let _ ← part rule position stop
    readBehindBrackets rule rest (stop + 1) { read with beyondEvents := true }
  | '\x7b' :: rest =>
    let span ← part rule position stop
    readField rule rest (stop + 1) { read with beyondEvents := !span.isEmpty }
  | _ => failure

/-- Reads a rule. -/
def read (rule : List Char) : Reading := do
  let body := Text.trim rule
  let start := body.takeWhile fun c => c ≠ '=' ∧ c ≠ '['
  let stop := Text.byteSize start
  if body.head?.all fun c => !mayBegin c then failure
  match body.drop start.length with
  | '=' :: _ =>
    let target ← part rule 0 stop
    match thresholdBehind? (← partFrom rule (stop + 1)) with
    | some threshold => return { target, threshold }
    | none => failure
  | '[' :: rest => readBrackets rule rest (stop + 1) { target := ← part rule 0 stop }
  | _ =>
    -- A single word is a level if it can be one, and else a target.
    match threshold? rule with
    | some threshold => return { threshold }
    | none => return { target := rule }

/-! ## Applying a rule -/

/-- Whether a rule is about the target and, of the fields, about the given ones. -/
def covers (rule : Rule) (target : Target) (hasField : List Char → Bool) : Bool :=
  !rule.beyondEvents && rule.target.isPrefixOf target.name.toList && rule.field.all hasField

/-- Whether a field says at least as much as another: a field says more than none, and
    of two fields the one that comes later in the dictionary goes first. -/
def fieldYields : Option (List Char) → Option (List Char) → Bool
  | none, _ => true
  | some _, none => false
  | some field, some other => !decide (other < field)

/-- Whether a rule yields to another one that comes after it and covers the same event:
    the longer target decides, and then the field. -/
def yieldsTo (rule later : Rule) : Bool :=
  rule.target.length < later.target.length ||
    rule.target.length == later.target.length && fieldYields rule.field later.field

end Rule

/-! ## Small rules -/

example : (Rule.read "emu=info".toList).run =
    some (some { target := "emu".toList, threshold := some .info }) := by decide +kernel

example : (Rule.read "emu[{message=(}]".toList).run = some none := by decide +kernel

end ByteMachine.Log
