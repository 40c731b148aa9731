import ByteMachine.Flags
import ByteMachine.Registers
/-!
# Arithmetic and logic

The fourteen operations on registers. An operation names two registers; it
reads both, also where it needs only one of them, and writes its result to the
first. Results are taken modulo 256.

Three operations stand apart: a quotient or remainder by zero is a fault, a
comparison writes no register and changes the flags instead, and a shift by
eight or more leaves nothing of its first operand.
-/

namespace ByteMachine

/-- The operations on registers. -/
inductive AluOp where
  | add | sub | mul | div | mod | inc | dec | cmp | and | not | or | xor | shl | shr
deriving DecidableEq, Repr, Inhabited

/-- The operation that an arithmetic instruction asks for. -/
def Instruction.aluOp? : Instruction → Option AluOp
  | .add => some .add | .sub => some .sub | .mul => some .mul | .div => some .div
  | .mod => some .mod | .inc => some .inc | .dec => some .dec | .cmp => some .cmp
  | .and => some .and | .not => some .not | .or => some .or | .xor => some .xor
  | .shl => some .shl | .shr => some .shr
  | _ => none

namespace AluOp

/-- The operation of an instruction; other instructions are not supported. -/
def ofInstruction (instruction : Instruction) : Except Fault AluOp :=
  match instruction.aluOp? with
  | some op => .ok op
  | none => .error (.unsupported instruction)

/-- Whether the second operand is a divisor. -/
def divides : AluOp → Bool
  | div | mod => true
  | _ => false

/-- The byte that goes to the first register, `x` and `y` being the operands.
    A complement is that of the second operand; a comparison keeps the first. -/
def value (op : AluOp) (x y : UInt8) : UInt8 :=
  match op with
  | add => x + y
  | sub => x - y
  | mul => x * y
  | div => x / y
  | mod => x % y
  | inc => x + 1
  | dec => x - 1
  | cmp => x
  | and => x &&& y
  | not => ~~~y
  | or => x ||| y
  | xor => x ^^^ y
  | shl => if y < 8 then x <<< y else 0
  | shr => if y < 8 then x >>> y else 0

/-- The flags after the operation: only a comparison sets them. -/
def flagsAfter (op : AluOp) (x y : UInt8) (flags : Flags) : Flags :=
  match op with
  | cmp => .ofOrdering (compare x y)
  | _ => flags

/-- Carries out an operation on the registers with the indices `a` and `b`. -/
def apply (op : AluOp) (a b : UInt8) (registers : Registers) (flags : Flags) :
    Except Fault (Registers × Flags) := do
  let x ← registers.read a
  let y ← registers.read b
  -- Both registers are checked before the divisor.
  if op.divides && y == 0 then throw .divideByZero
  let registers ← registers.write a (op.value x y)
  return (registers, op.flagsAfter x y flags)

end AluOp

end ByteMachine
