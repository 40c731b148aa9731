import ByteMachine.Registers
/-!
# Registers by operand byte

An operand byte names a register only if it is below 8. The machine's own access
refuses all other bytes; here the registers are total in the operand byte, which
is the form in which an instruction set is written down.

## Main statements

- `read_eq`, `write_eq`: the machine's access is the total one behind a check of
  the operand byte.
- `stackPointer_put`: a register write moves the stack pointer only if it names R7.
-/

namespace ByteMachine.Registers

/-- The content of the register that a byte names, zero if it names none. -/
def get (registers : Registers) (index : UInt8) : UInt8 :=
  registers.cells.getD index.toNat 0

/-- The registers with the one that a byte names changed, if it names one. -/
def put (registers : Registers) (index value : UInt8) : Registers :=
  ⟨registers.cells.setIfInBounds index.toNat value⟩

/-! ## The machine's access -/

theorem toNat_lt_of_not_le {index : UInt8} (h : ¬ 8 ≤ index) : index.toNat < 8 := by
  rw [UInt8.le_iff_toNat_le] at h
  exact Nat.not_le.mp h

theorem le_toNat_of_le {index : UInt8} (h : 8 ≤ index) : 8 ≤ index.toNat :=
  UInt8.le_iff_toNat_le.mp h

/-- Reading a register is a check of its index and then the total read. -/
theorem read_eq (registers : Registers) (index : UInt8) :
    registers.read index =
      if 8 ≤ index then .error (.registerIndex index) else .ok (registers.get index) := by
  split
  · next h => exact registers.read_of_ge (le_toNat_of_le h)
  · next h =>
    have hlt := toNat_lt_of_not_le h
    rw [registers.read_of_lt hlt]
    simp [get, Vector.getD, hlt]

/-- Writing a register is a check of its index and then the total write. -/
theorem write_eq (registers : Registers) (index value : UInt8) :
    registers.write index value =
      if 8 ≤ index then .error (.registerIndex index) else .ok (registers.put index value) := by
  split
  · next h => exact registers.write_of_ge (le_toNat_of_le h) value
  · next h =>
    have hlt := toNat_lt_of_not_le h
    rw [registers.write_of_lt hlt value]
    -- Within bounds the two ways of setting a cell agree.
    congr 2
    apply Vector.ext
    intro i hi
    rw [Vector.getElem_set, Vector.getElem_setIfInBounds]

/-! ## Registers after a write -/

theorem get_put_self (registers : Registers) {index : UInt8} (h : ¬ 8 ≤ index)
    (value : UInt8) : (registers.put index value).get index = value := by
  have hlt := toNat_lt_of_not_le h
  simp [get, put, Vector.getD, hlt]

/-- All other registers stay as they are. -/
theorem get_put_of_ne (registers : Registers) {index other : UInt8} (h : other ≠ index)
    (value : UInt8) : (registers.put index value).get other = registers.get other := by
  have hne : index.toNat ≠ other.toNat := fun heq => h (UInt8.toNat_inj.mp heq).symm
  by_cases hlt : other.toNat < 8
  · simp [get, put, Vector.getD, hlt, hne]
  · simp [get, put, Vector.getD, hlt]

/-- To write what is there changes nothing. -/
theorem put_get_self (registers : Registers) (index : UInt8) :
    registers.put index (registers.get index) = registers := by
  obtain ⟨cells⟩ := registers
  unfold put get
  congr 1
  apply Vector.ext
  intro i hi
  rw [Vector.getElem_setIfInBounds]
  split
  · next heq =>
    subst heq
    simp [Vector.getD, hi]
  · rfl

/-- R7 is the stack pointer. -/
theorem get_seven (registers : Registers) : registers.get 7 = registers.stackPointer := by
  have hseven : (7 : UInt8).toNat = 7 := by decide
  simp [get, stackPointer, Vector.getD, hseven]

@[simp] theorem stackPointer_put (registers : Registers) (index value : UInt8) :
    (registers.put index value).stackPointer =
      if index = 7 then value else registers.stackPointer := by
  have hseven : index.toNat = 7 ↔ index = 7 := by
    rw [← UInt8.toNat_inj]
    rfl
  simp only [stackPointer, put, Vector.getElem_setIfInBounds, hseven]

end ByteMachine.Registers
