import ByteMachine.Instruction
import ByteMachine.Numeral
/-!
# Faults

The reasons for which the machine refuses an operation, each with what is
needed to name it, and their wording in `Fault.message`.
-/

namespace ByteMachine

/-- Why an operation of the machine failed. -/
inductive Fault where
  /-- The byte is no instruction's opcode. -/
  | unknownOpcode (opcode : UInt8)
  /-- The address lies outside memory. -/
  | memoryAddress (address : Nat)
  /-- There is no register with this index. -/
  | registerIndex (index : UInt8)
  /-- The stack has nothing to take. -/
  | stackUnderflow
  /-- One more byte would put the stack below its limit. -/
  | stackOverflow (limit : UInt8)
  /-- The divisor of a quotient or remainder is zero. -/
  | divideByZero
  /-- The part of the machine that was asked does not know the instruction. -/
  | unsupported (instruction : Instruction)
  /-- The sink refused the output. -/
  | output (reason : String)
deriving DecidableEq, Repr, Inhabited

/-- The wording of a fault. -/
def Fault.message : Fault → String
  | unknownOpcode opcode => "unknown opcode " ++ Numeral.markedBinary opcode.toNat
  | memoryAddress address =>
    "memory address " ++ Numeral.markedHex address ++ " is out of range"
  | registerIndex index => "register index " ++ index.toNat.repr ++ " is out of range"
  | stackUnderflow => "stack underflow"
  | stackOverflow limit =>
    "stack overflow: stack would grow below " ++ Numeral.markedHex limit.toNat
  | divideByZero => "division by zero"
  | unsupported instruction => "unsupported ALU operation " ++ instruction.mnemonic
  | output reason => "failed to write output: " ++ reason

end ByteMachine
