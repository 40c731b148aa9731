import ByteMachine.Json.Basic
/-!
# Printing JSON

One printer with two layouts. The compact layout has no blanks at all. The
indented layout starts a new line for each item and each member, two spaces
deeper than the brackets around them, and has a space after a colon; brackets
without content stay together.
-/

namespace ByteMachine.Json

/-- How the parts of a value are set. -/
inductive Layout where
  | compact
  | indented
deriving DecidableEq, Repr

/-- What stands in front of an item at the given depth. -/
def Layout.lineBreak : Layout → Nat → List Char
  | compact, _ => []
  | indented, depth => '\n' :: List.replicate (2 * depth) ' '

/-- What stands between a key and its value. -/
def Layout.colon : Layout → List Char
  | compact => [':']
  | indented => [':', ' ']

/-- The hexadecimal digit for a number below sixteen. -/
def hexDigit (n : Nat) : Char :=
  Nat.digitChar n

/-- A character inside quotation marks. -/
def escaped (c : Char) : List Char :=
  if c = '\x22' then ['\x5c', '\x22']
  else if c = '\x5c' then ['\x5c', '\x5c']
  else if c = '\n' then ['\x5c', 'n']
  else if c = '\r' then ['\x5c', 'r']
  else if c = '\t' then ['\x5c', 't']
  else if c = '\x08' then ['\x5c', 'b']
  else if c = '\x0c' then ['\x5c', 'f']
  else if c.toNat < 0x20 then
    ['\x5c', 'u', '0', '0', hexDigit (c.toNat / 16), hexDigit (c.toNat % 16)]
  else [c]

/-- A text in quotation marks. -/
def quoted (text : String) : List Char :=
  '\x22' :: (text.toList.flatMap escaped ++ ['\x22'])

mutual

/-- The characters of a value that starts at the given depth. -/
def print (layout : Layout) (depth : Nat) : Json → List Char
  | null => ['n', 'u', 'l', 'l']
  | bool true => ['t', 'r', 'u', 'e']
  | bool false => ['f', 'a', 'l', 's', 'e']
  | integer value => (Int.repr value).toList
  | real spelling => spelling.toList
  | text value => quoted value
  | array [] => ['[', ']']
  | array (item :: rest) =>
    '[' :: (layout.lineBreak (depth + 1) ++ print layout (depth + 1) item ++
      printItems layout (depth + 1) rest ++ layout.lineBreak depth ++ [']'])
  | object [] => ['\x7b', '\x7d']
  | object ((key, value) :: rest) =>
    '\x7b' :: (layout.lineBreak (depth + 1) ++ quoted key ++ layout.colon ++
      print layout (depth + 1) value ++
      printMembers layout (depth + 1) rest ++ layout.lineBreak depth ++ ['\x7d'])

/-- The characters of the further items of an array. -/
def printItems (layout : Layout) (depth : Nat) : List Json → List Char
  | [] => []
  | item :: rest =>
    ',' :: (layout.lineBreak depth ++ print layout depth item ++
      printItems layout depth rest)

/-- The characters of the further members of an object. -/
def printMembers (layout : Layout) (depth : Nat) : List (String × Json) → List Char
  | [] => []
  | (key, value) :: rest =>
    ',' :: (layout.lineBreak depth ++ quoted key ++ layout.colon ++
      print layout depth value ++ printMembers layout depth rest)

end

/-- A value on one line without blanks. -/
def compact (value : Json) : String :=
  String.ofList (print .compact 0 value)

/-- A value over several lines. -/
def pretty (value : Json) : String :=
  String.ofList (print .indented 0 value)

/-! ## Small values -/

example : (array [ofNat 1, bool true]).compact = "[1,true]" := by decide +kernel

example : (object [("a", array []), ("b", array [null])]).pretty
    = "\x7b\n  \"a\": [],\n  \"b\": [\n    null\n  ]\n\x7d" := by decide +kernel

end ByteMachine.Json
