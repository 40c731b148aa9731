import ByteMachine.Fault
/-!
# Registers

Eight registers of one byte, R0 to R7. R7 is the stack pointer: it starts at
the top of the stack, `0xF4`, while the others start at zero. Instructions name
registers by an operand byte, and an index from 8 on is refused.
-/

namespace ByteMachine

/-- The contents of the registers, by index. -/
structure Registers where
  cells : Vector UInt8 8
deriving DecidableEq, Repr

namespace Registers

/-- The value of the stack pointer while the stack is empty; the cells from
    here up are outside the stack. -/
def stackTop : UInt8 := 0xF4

/-- The registers at the start: all zero but for the stack pointer. -/
def initial : Registers := ⟨(Vector.replicate 8 0).set 7 stackTop⟩

instance : Inhabited Registers := ⟨initial⟩

/-- The byte that a register keeps of a 32-bit value: its lowest. -/
def lowByte (value : UInt32) : UInt8 := value.toUInt8

/-- The content of a register. -/
def read (registers : Registers) (index : UInt8) : Except Fault UInt8 :=
  if h : index.toNat < 8 then .ok registers.cells[index.toNat]
  else .error (.registerIndex index)

/-- The registers with one of them changed. -/
def write (registers : Registers) (index value : UInt8) : Except Fault Registers :=
  if h : index.toNat < 8 then .ok ⟨registers.cells.set index.toNat value⟩
  else .error (.registerIndex index)

/-- The content of the stack pointer, R7. -/
def stackPointer (registers : Registers) : UInt8 :=
  registers.cells[7]

/-- The registers with the stack pointer changed. -/
def setStackPointer (registers : Registers) (value : UInt8) : Registers :=
  ⟨registers.cells.set 7 value⟩

/-! ## Access -/

theorem read_of_lt (registers : Registers) {index : UInt8} (h : index.toNat < 8) :
    registers.read index = .ok registers.cells[index.toNat] := by
  simp only [read, h, dite_true]

theorem read_of_ge (registers : Registers) {index : UInt8} (h : 8 ≤ index.toNat) :
    registers.read index = .error (.registerIndex index) := by
  simp only [read, Nat.not_lt.mpr h, dite_false]

theorem write_of_lt (registers : Registers) {index : UInt8} (h : index.toNat < 8)
    (value : UInt8) :
    registers.write index value = .ok ⟨registers.cells.set index.toNat value⟩ := by
  simp only [write, h, dite_true]

theorem write_of_ge (registers : Registers) {index : UInt8} (h : 8 ≤ index.toNat)
    (value : UInt8) :
    registers.write index value = .error (.registerIndex index) := by
  simp only [write, Nat.not_lt.mpr h, dite_false]

/-! ## Registers after a change -/

@[simp] theorem stackPointer_initial : initial.stackPointer = stackTop := rfl

@[simp] theorem stackPointer_setStackPointer (registers : Registers) (value : UInt8) :
    (registers.setStackPointer value).stackPointer = value := by
  simp [stackPointer, setStackPointer]

@[simp] theorem setStackPointer_setStackPointer (registers : Registers) (u v : UInt8) :
    (registers.setStackPointer u).setStackPointer v = registers.setStackPointer v := by
  simp [setStackPointer]

@[simp] theorem setStackPointer_stackPointer (registers : Registers) :
    registers.setStackPointer registers.stackPointer = registers := by
  simp [stackPointer, setStackPointer]

end Registers

end ByteMachine
