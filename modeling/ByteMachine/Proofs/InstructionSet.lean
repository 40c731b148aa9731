import ByteMachine.Alu
import ByteMachine.Machine.Basic
import ByteMachine.Proofs.Registers
/-!
# The instruction set

What each instruction does, written down field by field. For every field of the
machine there is a table that says which instructions change it and to what, read
off the machine before the instruction; an instruction that a table does not name
leaves that field as it is. The code is laid out the other way round, instruction
by instruction, and the two meet in `Proofs/Step`.

`p` stands for the program counter, `a` and `b` for the operand bytes, `R` for the
registers and `SP` for R7.

## Main definitions

- `instruction?`: the instruction at the program counter.
- `memoryAfter`, `registersAfter`, `flagsAfter`, `pcAfter`, `runningAfter`,
  `outputAfter`: the tables.
- `after`: the machine after an instruction, put together from the tables.
-/

namespace ByteMachine.Machine

/-! ## The instruction at the program counter -/

/-- The byte a number of cells behind the program counter. -/
def ahead (machine : Machine) (offset : Nat) : UInt8 :=
  machine.memory.cell (UInt8.ofNat (machine.pc.toNat + offset))

/-- The instruction at the program counter, if it is at an opcode. -/
def instruction? (machine : Machine) : Option Instruction :=
  if machine.pc.toNat < Memory.capacity then Instruction.ofOpcode? (machine.ahead 0) else none

/-- The operand byte `a`. -/
def operandA (machine : Machine) : UInt8 :=
  machine.ahead 1

/-- The operand byte `b`. An instruction with a single operand takes it for both. -/
def operandB (machine : Machine) (instruction : Instruction) : UInt8 :=
  machine.ahead (if instruction.operandCount < 2 then 1 else 2)

/-- The register `R[a]`. -/
def registerA (machine : Machine) : UInt8 :=
  machine.registers.get machine.operandA

/-- The register `R[b]`. -/
def registerB (machine : Machine) (instruction : Instruction) : UInt8 :=
  machine.registers.get (machine.operandB instruction)

/-- The stack pointer `SP`. -/
def stackPointer (machine : Machine) : UInt8 :=
  machine.registers.stackPointer

/-! ## The tables -/

/-- Memory: ST stores a register, PUSH and CALL store below the stack pointer. -/
def memoryAfter (machine : Machine) : Instruction → Memory
  | .st => machine.memory.setCell machine.registerA (machine.registerB .st)
  | .push => machine.memory.setCell (machine.stackPointer - 1) machine.registerA
  | .call =>
    machine.memory.setCell (machine.stackPointer - 1) (UInt8.ofNat (machine.pc.toNat + 2))
  | _ => machine.memory

/-- Registers and flags that the arithmetic unit returns; those of the machine for
    an instruction that is not its own. -/
def aluAfter (machine : Machine) (instruction : Instruction) : Registers × Flags :=
  match instruction.aluOp? with
  | none => (machine.registers, machine.flags)
  | some op =>
    match op.apply machine.operandA (machine.operandB instruction)
        machine.registers machine.flags with
    | .ok outcome => outcome
    -- A refused operation does not get this far.
    | .error _ => (machine.registers, machine.flags)

/-- Registers: the loads and POP write `R[a]`, the stack instructions move `SP`. -/
def registersAfter (machine : Machine) : Instruction → Registers
  | .ldi => machine.registers.put machine.operandA (machine.operandB .ldi)
  | .ld => machine.registers.put machine.operandA (machine.memory.cell (machine.registerB .ld))
  | .push | .call => machine.registers.setStackPointer (machine.stackPointer - 1)
  -- POP moves SP first, so that a byte popped into R7 is what stays there.
  | .pop =>
    (machine.registers.setStackPointer (machine.stackPointer + 1)).put machine.operandA
      (machine.memory.cell machine.stackPointer)
  | .ret => machine.registers.setStackPointer (machine.stackPointer + 1)
  | instruction => (machine.aluAfter instruction).1

/-- Flags: only the arithmetic unit sets them. -/
def flagsAfter (machine : Machine) (instruction : Instruction) : Flags :=
  (machine.aluAfter instruction).2

/-- Whether an instruction jumps, by the bits of the flags byte: bit 0 is E, bit 1
    is G and bit 2 is L. -/
def jumps (flags : UInt8) : Instruction → Bool
  | .jmp => true
  | .jeq => flags.toNat.testBit 0
  | .jne => !flags.toNat.testBit 0
  | .jgt => flags.toNat.testBit 1
  | .jlt => flags.toNat.testBit 2
  | .jge => flags.toNat.testBit 1 || flags.toNat.testBit 0
  | .jle => flags.toNat.testBit 2 || flags.toNat.testBit 0
  | _ => false

/-- Program counter: `p` for HLT, a target for calls, returns and jumps that are
    taken, and the address behind the instruction for all others. -/
def pcAfter (machine : Machine) : Instruction → Nat
  | .hlt => machine.pc.toNat
  | .call => machine.registerA.toNat
  | .ret => (machine.memory.cell machine.stackPointer).toNat
  -- No flags make an instruction jump that is not a jump.
  | instruction =>
    if jumps machine.flags.bits instruction then machine.registerA.toNat
    else machine.pc.toNat + instruction.width

/-- Running: HLT stops the machine. -/
def runningAfter (machine : Machine) : Instruction → Bool
  | .hlt => false
  | _ => machine.running

/-- Output: PRN prints `R[a]` in decimal, on a line of its own. -/
def outputAfter (machine : Machine) : Instruction → String
  | .prn => machine.registerA.toNat.repr ++ "\n"
  | _ => ""

/-- The machine after an instruction. -/
def after (machine : Machine) (instruction : Instruction) : Machine where
  memory := machine.memoryAfter instruction
  registers := machine.registersAfter instruction
  flags := machine.flagsAfter instruction
  pc := UInt64.ofNat (machine.pcAfter instruction)
  ir := machine.ahead 0
  stackLimit := machine.stackLimit
  running := machine.runningAfter instruction
  cycles := machine.cycles + 1

end ByteMachine.Machine
