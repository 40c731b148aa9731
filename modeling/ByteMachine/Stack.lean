import ByteMachine.Memory
import ByteMachine.Registers
/-!
# The stack

A stack of bytes in memory. It grows downwards from the top of the stack, and
the stack pointer holds the address of its topmost byte. A push needs a free
cell at or above the limit, a pop a byte below the top of the stack.
-/

namespace ByteMachine.Stack

/-- Puts a byte on the stack, keeping at or above the limit. -/
def push (memory : Memory) (registers : Registers) (limit value : UInt8) :
    Except Fault (Memory × Registers) :=
  let pointer := registers.stackPointer
  if limit < pointer then
    .ok (memory.setCell (pointer - 1) value, registers.setStackPointer (pointer - 1))
  else .error (.stackOverflow limit)

/-- Takes the topmost byte from the stack; its cell keeps the byte. -/
def pop (memory : Memory) (registers : Registers) : Except Fault (UInt8 × Registers) :=
  let pointer := registers.stackPointer
  if pointer < Registers.stackTop then
    .ok (memory.cell pointer, registers.setStackPointer (pointer + 1))
  else .error .stackUnderflow

/-! ## When there is room, and when there is a byte -/

theorem push_of_lt (memory : Memory) {registers : Registers} {limit : UInt8}
    (h : limit < registers.stackPointer) (value : UInt8) :
    push memory registers limit value =
      .ok (memory.setCell (registers.stackPointer - 1) value,
        registers.setStackPointer (registers.stackPointer - 1)) := by
  simp only [push, h, if_true]

theorem push_of_not_lt (memory : Memory) {registers : Registers} {limit : UInt8}
    (h : ¬ limit < registers.stackPointer) (value : UInt8) :
    push memory registers limit value = .error (.stackOverflow limit) := by
  simp only [push, h, if_false]

theorem pop_of_lt (memory : Memory) {registers : Registers}
    (h : registers.stackPointer < Registers.stackTop) :
    pop memory registers =
      .ok (memory.cell registers.stackPointer,
        registers.setStackPointer (registers.stackPointer + 1)) := by
  simp only [pop, h, if_true]

theorem pop_of_not_lt (memory : Memory) {registers : Registers}
    (h : ¬ registers.stackPointer < Registers.stackTop) :
    pop memory registers = .error .stackUnderflow := by
  simp only [pop, h, if_false]

end ByteMachine.Stack
