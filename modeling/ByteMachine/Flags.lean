import ByteMachine.Bit
import ByteMachine.Instruction
/-!
# Flags and conditions

The flags byte remembers the outcome of the last comparison: bit 0 for equal,
bit 1 for greater and bit 2 for less. A comparison sets exactly one of them and
clears all other bits of the byte. The byte may also be set directly, so every
value of it is possible and each flag is read from its own bit.

A condition is what a jump asks of the flags.
-/

namespace ByteMachine

/-- The flags byte. -/
structure Flags where
  bits : UInt8 := 0
deriving DecidableEq, Repr, Inhabited

/-- What a jump requires of the last comparison. -/
inductive Condition where
  | always | equal | notEqual | greater | less | greaterOrEqual | lessOrEqual
deriving DecidableEq, Repr, Inhabited

namespace Flags

/-- The flag for equal operands. -/
def equal (flags : Flags) : Bool := Bit.get flags.bits 0

/-- The flag for a greater first operand. -/
def greater (flags : Flags) : Bool := Bit.get flags.bits 1

/-- The flag for a lesser first operand. -/
def less (flags : Flags) : Bool := Bit.get flags.bits 2

/-- The flags after a comparison with the given outcome. -/
def ofOrdering : Ordering → Flags
  | .eq => ⟨Bit.set 0 0 true⟩
  | .gt => ⟨Bit.set 0 1 true⟩
  | .lt => ⟨Bit.set 0 2 true⟩

/-- Whether the flags meet a condition. -/
def satisfies (flags : Flags) : Condition → Bool
  | .always => true
  | .equal => flags.equal
  | .notEqual => !flags.equal
  | .greater => flags.greater
  | .less => flags.less
  | .greaterOrEqual => flags.greater || flags.equal
  | .lessOrEqual => flags.less || flags.equal

end Flags

/-- The condition under which a jump is taken; other instructions have none. -/
def Instruction.condition? : Instruction → Option Condition
  | .jmp => some .always
  | .jeq => some .equal
  | .jne => some .notEqual
  | .jgt => some .greater
  | .jlt => some .less
  | .jge => some .greaterOrEqual
  | .jle => some .lessOrEqual
  | _ => none

end ByteMachine
