import ByteMachine.Memory
/-!
# Decoded operations

An operation is an instruction together with its opcode byte and its operand
bytes, as found in memory. Its category and operand count are fields of their
own: decoding fills them in from the instruction, and an operation put together
by hand may differ from that, which is for the machine to refuse.

Decoding reads only the operand bytes that the instruction has, so an
instruction without operands decodes in the last cell of memory.
-/

namespace ByteMachine

/-- An instruction with its operands. -/
structure Operation where
  instruction : Instruction
  category : Category
  operandCount : Nat
  /-- The opcode byte. -/
  raw : UInt8
  /-- The first operand byte, zero if it was not read. -/
  first : UInt8 := 0
  /-- The second operand byte, zero if it was not read. -/
  second : UInt8 := 0
deriving DecidableEq, Repr

namespace Operation

/-- Decodes the operation at an address of memory. -/
def decode (memory : Memory) (address : Nat) : Except Fault Operation := do
  let raw ← memory.read address
  match Instruction.ofOpcode? raw with
  | none => throw (.unknownOpcode raw)
  | some instruction =>
    let first ←
      if 0 < instruction.operandCount then memory.read (address + 1) else pure 0
    let second ←
      if 1 < instruction.operandCount then memory.read (address + 2) else pure 0
    return { instruction, category := instruction.category,
             operandCount := instruction.operandCount, raw, first, second }

/-- The number of bytes of the operation. -/
def width (operation : Operation) : Nat :=
  1 + operation.operandCount

/-- The operand bytes, in order. -/
def operands (operation : Operation) : List UInt8 :=
  [operation.first, operation.second].take operation.operandCount

/-- The first operand, zero for an operation without operands. -/
def a (operation : Operation) : UInt8 :=
  operation.first

/-- The second operand. An operation with fewer than two uses its first one
    again, so that a complement of one register is taken in place. -/
def b (operation : Operation) : UInt8 :=
  if operation.operandCount < 2 then operation.first else operation.second

/-- The name of the register with the given index. -/
def registerName (index : UInt8) : String :=
  "R" ++ index.toNat.repr

/-- The operation as a line of assembly: operands are registers, but for the
    second one of `LDI`, which is a number. -/
def text (operation : Operation) : String :=
  operation.instruction.mnemonic ++
    match operation.instruction, operation.operands with
    | _, [] => ""
    | _, [register] => " " ++ registerName register
    | .ldi, register :: number :: _ =>
      " " ++ registerName register ++ "," ++ number.toNat.repr
    | _, register :: other :: _ =>
      " " ++ registerName register ++ "," ++ registerName other

end Operation

end ByteMachine
