/-!
# Depth of a pattern

How deep the parts of a pattern lie in one another. A symbol has depth zero, and
everything that holds other parts is one deeper than the deepest of them; a
sequence, a choice or a list of items counts only if it has two parts or more.
A pattern must not be deeper than a limit.
-/

namespace ByteMachine.Log.Pattern

/-- The greatest depth of a pattern. -/
def depthLimit : Nat := 250

/-- The depth of something that holds one part. -/
def depthAround (depth : Nat) : Nat :=
  depth + 1

/-- The depth of parts side by side. -/
def depthOfAll : List Nat → Nat
  | [] => 0
  | [depth] => depth
  | depths => depthAround (depths.foldl max 0)

/-! ## Small cases -/

example : depthOfAll [3] = 3 := rfl

example : depthOfAll [0, 3, 1] = 4 := rfl

end ByteMachine.Log.Pattern
