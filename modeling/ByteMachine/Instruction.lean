/-!
# Instructions

The thirty-one instructions of the machine, each with its mnemonic and its
opcode byte. The byte says how the instruction is laid out and carried out:

- bits 7 and 6 hold the number of operand bytes that follow,
- bit 5 marks an arithmetic instruction,
- bit 4, where bit 5 is clear, marks a transfer of control.

Everything else about an opcode is read off these bits, so the list of
instructions and the function `opcode` are the whole instruction table.
-/

namespace ByteMachine

/-- The instructions of the machine. -/
inductive Instruction where
  | add | sub | mul | div | mod | inc | dec | cmp | and | not | or | xor | shl | shr
  | call | ret | jmp | jeq | jne | jgt | jlt | jle | jge
  | nop | hlt | ldi | ld | st | push | pop | prn
deriving DecidableEq, Repr, Inhabited

/-- Which part of the machine carries an instruction out. -/
inductive Category where
  /-- Arithmetic and logic on registers and flags. -/
  | arithmetic
  /-- Transfers of control: calls, returns and jumps. -/
  | control
  /-- All other instructions. -/
  | simple
deriving DecidableEq, Repr, Inhabited

/-- The category that an opcode byte announces in its bits 5 and 4. -/
def Category.ofOpcode (opcode : UInt8) : Category :=
  if opcode &&& 0x20 ≠ 0 then .arithmetic
  else if opcode &&& 0x10 ≠ 0 then .control
  else .simple

namespace Instruction

/-- Every instruction once. -/
def all : List Instruction :=
  [add, sub, mul, div, mod, inc, dec, cmp, and, not, or, xor, shl, shr,
   call, ret, jmp, jeq, jne, jgt, jlt, jle, jge,
   nop, hlt, ldi, ld, st, push, pop, prn]

/-- The opcode byte of an instruction. -/
def opcode : Instruction → UInt8
  | add => 0xA0 | sub => 0xA1 | mul => 0xA2 | div => 0xA3 | mod => 0xA4
  | inc => 0x65 | dec => 0x66 | cmp => 0xA7 | and => 0xA8 | not => 0x69
  | or => 0xAA | xor => 0xAB | shl => 0xAC | shr => 0xAD
  | call => 0x50 | ret => 0x11
  | jmp => 0x54 | jeq => 0x55 | jne => 0x56 | jgt => 0x57 | jlt => 0x58
  | jle => 0x59 | jge => 0x5A
  | nop => 0x00 | hlt => 0x01 | ldi => 0x82 | ld => 0x83 | st => 0x84
  | push => 0x45 | pop => 0x46 | prn => 0x47

/-- The name of an instruction in listings and messages. -/
def mnemonic : Instruction → String
  | add => "ADD" | sub => "SUB" | mul => "MUL" | div => "DIV" | mod => "MOD"
  | inc => "INC" | dec => "DEC" | cmp => "CMP" | and => "AND" | not => "NOT"
  | or => "OR" | xor => "XOR" | shl => "SHL" | shr => "SHR"
  | call => "CALL" | ret => "RET"
  | jmp => "JMP" | jeq => "JEQ" | jne => "JNE" | jgt => "JGT" | jlt => "JLT"
  | jle => "JLE" | jge => "JGE"
  | nop => "NOP" | hlt => "HLT" | ldi => "LDI" | ld => "LD" | st => "ST"
  | push => "PUSH" | pop => "POP" | prn => "PRN"

/-- The number of operand bytes that follow the opcode. -/
def operandCount (instruction : Instruction) : Nat :=
  (instruction.opcode >>> 6).toNat

/-- The number of bytes of the instruction, its opcode included. -/
def width (instruction : Instruction) : Nat :=
  1 + instruction.operandCount

/-- The category that the opcode byte announces. -/
def category (instruction : Instruction) : Category :=
  .ofOpcode instruction.opcode

/-- The instruction with the given opcode byte, if there is one. -/
def ofOpcode? (opcode : UInt8) : Option Instruction :=
  all.find? fun instruction => instruction.opcode == opcode

/-- The instruction with the given mnemonic, if there is one. -/
def ofMnemonic? (mnemonic : String) : Option Instruction :=
  all.find? fun instruction => instruction.mnemonic == mnemonic

/-! ## The table -/

theorem mem_all (instruction : Instruction) : instruction ∈ all := by
  cases instruction <;> decide

/-- Looking up an instruction's own opcode finds that instruction. -/
@[simp] theorem ofOpcode?_opcode (instruction : Instruction) :
    ofOpcode? instruction.opcode = some instruction := by
  cases instruction <;> rfl

/-- No two instructions share an opcode. -/
theorem opcode_injective {i j : Instruction} (h : i.opcode = j.opcode) : i = j :=
  Option.some.inj (by rw [← ofOpcode?_opcode i, h, ofOpcode?_opcode])

/-- A byte leads to an instruction exactly if it is that instruction's opcode. -/
theorem ofOpcode?_eq_some_iff {opcode : UInt8} {instruction : Instruction} :
    ofOpcode? opcode = some instruction ↔ instruction.opcode = opcode := by
  constructor
  · intro h
    simpa using List.find?_some h
  · rintro rfl
    exact ofOpcode?_opcode instruction

/-- No instruction has more than two operands. -/
theorem operandCount_le_two (instruction : Instruction) : instruction.operandCount ≤ 2 := by
  cases instruction <;> decide

end Instruction

end ByteMachine
