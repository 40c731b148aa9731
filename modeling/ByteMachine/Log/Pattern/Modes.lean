import ByteMachine.Text.Blank
/-!
# Modes of a pattern

A directive such as `(?ix-u)` switches modes of a pattern on and, behind a dash,
off. Three of the modes matter to what the rest of the pattern may be: whether
letters stand for both their cases, whether a pattern is about characters or
about bytes, and whether blanks and comments in it are skipped.
-/

namespace ByteMachine.Log.Pattern

/-- The modes of a pattern as far as they bear on the rest of it. -/
structure Modes where
  /-- Whether a letter stands for both its cases. -/
  caseless : Bool := false
  /-- Whether the pattern is about characters, not bytes. -/
  unicode : Bool := true
  /-- Whether blanks and comments are skipped. -/
  verbose : Bool := false
deriving DecidableEq, Repr

namespace Modes

/-! ## Directives -/

/-- The letters of the modes, in a directive. -/
def letters : List Char :=
  ['i', 'm', 's', 'U', 'u', 'R', 'x']

/-- The modes with the one that has the given letter switched on or off. -/
def switch (modes : Modes) (letter : Char) (on : Bool) : Modes :=
  if letter = 'i' then { modes with caseless := on }
  else if letter = 'u' then { modes with unicode := on }
  else if letter = 'x' then { modes with verbose := on }
  else modes

/-- Whether a directive is well formed: it has letters of modes and at most one
    dash, nothing twice, and a letter behind the dash. -/
def isDirective (directive : List Char) : Bool :=
  directive.all (fun c => c = '-' || letters.contains c) && decide directive.Nodup &&
    directive.getLast? != some '-'

/-- The modes behind a directive. -/
def after? (modes : Modes) (directive : List Char) : Option Modes :=
  if isDirective directive then
    let switchedOn := (directive.takeWhile (· ≠ '-')).foldl (switch · · true) modes
    some ((directive.dropWhile (· ≠ '-')).foldl (switch · · false) switchedOn)
  else none

/-! ## Blanks and comments -/

/-- A text without the blanks and comments in front. A comment goes from a number
    sign to the end of the line; `inComment` says that the text starts in one. -/
def dropSkipped (inComment : Bool) : List Char → List Char
  | [] => []
  | c :: rest =>
    if inComment then dropSkipped (c ≠ '\n') rest
    else if c = '#' then dropSkipped true rest
    else if Text.isBlank c then dropSkipped false rest
    else c :: rest

/-- A text without what the modes skip in front of it. -/
def skip (modes : Modes) (text : List Char) : List Char :=
  if modes.verbose then dropSkipped false text else text

/-- The character that is looked at to tell whether the dash in front of a text
    makes a range. Of a comment only the number sign is skipped here. -/
def peek (modes : Modes) (text : List Char) : Option Char :=
  if modes.verbose then
    let ahead := text.dropWhile Text.isBlank
    let ahead := if ahead.head? = some '#' then ahead.tail.dropWhile Text.isBlank else ahead
    ahead.head? <|> text.head?
  else text.head?

/-! ## Laws -/

/-- A directive without letters and dash changes nothing. -/
theorem after?_nil (modes : Modes) : modes.after? [] = some modes := rfl

theorem length_dropSkipped_le (inComment : Bool) (text : List Char) :
    (dropSkipped inComment text).length ≤ text.length := by
  fun_induction dropSkipped inComment text with
  | case1 => exact Nat.le_refl _
  | case2 _ _ ih => exact Nat.le_succ_of_le ih
  | case3 _ _ _ ih => exact Nat.le_succ_of_le ih
  | case4 _ _ _ _ _ _ ih => exact Nat.le_succ_of_le ih
  | case5 => exact Nat.le_refl _

/-- Skipping never makes a text longer. -/
theorem length_skip_le (modes : Modes) (text : List Char) :
    (modes.skip text).length ≤ text.length := by
  unfold skip
  split
  · exact length_dropSkipped_le false text
  · exact Nat.le_refl _

end Modes

end ByteMachine.Log.Pattern
