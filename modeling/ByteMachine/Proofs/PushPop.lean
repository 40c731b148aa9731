import ByteMachine.Proofs.Stores
/-!
# Push and pop

A push asks whether there is room above the limit, a pop whether there is a byte below the top of
the stack. Neither asks for both, and the stack pointer is a register that a program may set to
anything, so pop undoes push on a part of its range only: a push from above the top goes through,
into the reserved cells, and cannot be taken back. The other way round push always undoes pop, as
long as the limit leaves it the room.

Here both work in place, on memory and registers, and an error leaves behind whatever has been
written before it.

## Main definitions

- `Stack.pushInPlace`, `Stack.popInPlace`: push and pop, write by write.
- `Stack.Pushed`: what a push leaves.

## Main statements

- `Stack.pushInPlace_eq`, `Stack.popInPlace_eq`: in place they are push and pop as a whole.
- `Stack.push_pop_whole_range`: where they are inverse to each other and where they are not.
-/

namespace ByteMachine

/-! ## Memory and the stack pointer -/

/-- To put back what a cell has changes nothing. -/
theorem Memory.setCell_cell (memory : Memory) (address : UInt8) :
    memory.setCell address (memory.cell address) = memory := by
  apply ext_cell
  intro other
  rw [cell_setCell]
  split
  · next heq => rw [heq]
  · rfl

namespace Registers

theorem setStackPointer_eq_put (registers : Registers) (value : UInt8) :
    registers.setStackPointer value = registers.put 7 value := by
  unfold setStackPointer put
  congr 1
  apply Vector.ext
  intro i hi
  rw [Vector.getElem_set, Vector.getElem_setIfInBounds]
  rfl

theorem get_setStackPointer (registers : Registers) (value index : UInt8) :
    (registers.setStackPointer value).get index =
      if index = 7 then value else registers.get index := by
  rw [setStackPointer_eq_put]
  split
  · next h =>
    subst h
    exact registers.get_put_self (by decide) value
  · next h => exact registers.get_put_of_ne h value

end Registers

namespace Stack

variable {memory : Memory} {registers : Registers} {limit value : UInt8}

/-! ## In place -/

/-- The byte before another one. There is none before zero. -/
def pred? (byte : UInt8) : Option UInt8 :=
  if byte = 0 then none else some (byte - 1)

/-- Puts a byte on the stack in place and gives the new stack pointer. -/
def pushInPlace (memory : Memory) (registers : Registers) (limit value : UInt8) :
    Memory × Registers × Except Fault UInt8 :=
  match (pred? registers.stackPointer).filter (limit ≤ ·) with
  | none => (memory, registers, .error (.stackOverflow limit))
  | some pointer =>
    match memory.write pointer.toNat value with
    | .error fault => (memory, registers, .error fault)
    | .ok written => (written, registers.setStackPointer pointer, .ok pointer)

/-- Takes the topmost byte from the stack in place. -/
def popInPlace (memory : Memory) (registers : Registers) : Registers × Except Fault UInt8 :=
  if Registers.stackTop ≤ registers.stackPointer then (registers, .error .stackUnderflow)
  else
    match memory.read registers.stackPointer.toNat with
    | .error fault => (registers, .error fault)
    | .ok taken => (registers.setStackPointer (registers.stackPointer + 1), .ok taken)

/-- There is a byte before the stack pointer that is not below the limit exactly if the stack
    pointer is above the limit. -/
theorem filter_pred? (pointer limit : UInt8) :
    (pred? pointer).filter (limit ≤ ·) = if limit < pointer then some (pointer - 1) else none := by
  unfold pred?
  by_cases hzero : pointer = 0
  · have hnot : ¬ limit < pointer := by
      rw [hzero, UInt8.lt_iff_toNat_lt]
      exact Nat.not_lt_zero _
    rw [if_pos hzero, if_neg hnot, Option.filter_none]
  · have hpos : 0 < pointer := UInt8.lt_iff_toNat_lt.mpr
      (Nat.pos_of_ne_zero fun h => hzero (UInt8.toNat_inj.mp h))
    have hpred := Machine.toNat_pred hpos
    have hroom : limit ≤ pointer - 1 ↔ limit < pointer := by
      rw [UInt8.le_iff_toNat_le, UInt8.lt_iff_toNat_lt]
      omega
    rw [if_neg hzero, Option.filter_some]
    simp only [decide_eq_true_eq, hroom]

theorem pushInPlace_of_lt (memory : Memory) (h : limit < registers.stackPointer)
    (value : UInt8) :
    pushInPlace memory registers limit value =
      (memory.setCell (registers.stackPointer - 1) value,
        registers.setStackPointer (registers.stackPointer - 1),
        .ok (registers.stackPointer - 1)) := by
  unfold pushInPlace
  rw [filter_pred?, if_pos h]
  dsimp only
  rw [Memory.write_toNat]

theorem pushInPlace_of_not_lt (memory : Memory) (h : ¬ limit < registers.stackPointer)
    (value : UInt8) :
    pushInPlace memory registers limit value =
      (memory, registers, .error (.stackOverflow limit)) := by
  unfold pushInPlace
  rw [filter_pred?, if_neg h]

theorem popInPlace_of_lt (memory : Memory) (h : registers.stackPointer < Registers.stackTop) :
    popInPlace memory registers =
      (registers.setStackPointer (registers.stackPointer + 1),
        .ok (memory.cell registers.stackPointer)) := by
  unfold popInPlace
  rw [if_neg (UInt8.not_le.mpr h), Memory.read_toNat]

theorem popInPlace_of_not_lt (memory : Memory)
    (h : ¬ registers.stackPointer < Registers.stackTop) :
    popInPlace memory registers = (registers, .error .stackUnderflow) := by
  unfold popInPlace
  rw [if_pos (UInt8.not_lt.mp h)]

/-- **A push in place** is the push as a whole, and what it gives is the new stack pointer. -/
theorem pushInPlace_eq (memory : Memory) (registers : Registers) (limit value : UInt8) :
    pushInPlace memory registers limit value =
      match push memory registers limit value with
      | .ok (written, moved) => (written, moved, .ok moved.stackPointer)
      | .error fault => (memory, registers, .error fault) := by
  by_cases h : limit < registers.stackPointer
  · rw [pushInPlace_of_lt memory h, push_of_lt memory h]
    dsimp only
    rw [Registers.stackPointer_setStackPointer]
  · rw [pushInPlace_of_not_lt memory h, push_of_not_lt memory h]

/-- **A pop in place** is the pop as a whole. -/
theorem popInPlace_eq (memory : Memory) (registers : Registers) :
    popInPlace memory registers =
      match pop memory registers with
      | .ok (taken, moved) => (moved, .ok taken)
      | .error fault => (registers, .error fault) := by
  by_cases h : registers.stackPointer < Registers.stackTop
  · rw [popInPlace_of_lt memory h, pop_of_lt memory h]
  · rw [popInPlace_of_not_lt memory h, pop_of_not_lt memory h]

/-! ## One after the other -/

/-- What a push leaves: the byte in the cell below the stack pointer, the stack pointer at that
    cell, and all other cells and registers as they were. -/
structure Pushed (memory : Memory) (registers : Registers) (value : UInt8) (written : Memory)
    (moved : Registers) (pointer : UInt8) : Prop where
  pointer_eq : pointer.toNat + 1 = registers.stackPointer.toNat
  cell_eq : ∀ address,
    written.cell address = if address = pointer then value else memory.cell address
  get_eq : ∀ index, moved.get index = if index = 7 then pointer else registers.get index

theorem pushed_of_lt (memory : Memory) (h : limit < registers.stackPointer) (value : UInt8) :
    Pushed memory registers value (memory.setCell (registers.stackPointer - 1) value)
      (registers.setStackPointer (registers.stackPointer - 1))
      (registers.stackPointer - 1) where
  pointer_eq := Machine.toNat_pred h
  cell_eq address := by
    rw [Memory.cell_setCell]
    simp only [eq_comm]
  get_eq index := registers.get_setStackPointer _ index

/-- Pop undoes push exactly if the push was not from above the top of the stack. -/
theorem popInPlace_of_push (memory : Memory) (h : limit < registers.stackPointer)
    (value : UInt8) :
    popInPlace (memory.setCell (registers.stackPointer - 1) value)
        (registers.setStackPointer (registers.stackPointer - 1)) =
      if registers.stackPointer ≤ Registers.stackTop then (registers, .ok value)
      else (registers.setStackPointer (registers.stackPointer - 1), .error .stackUnderflow) := by
  have hpred := Machine.toNat_pred h
  have hpointer : (registers.setStackPointer (registers.stackPointer - 1)).stackPointer =
      registers.stackPointer - 1 := Registers.stackPointer_setStackPointer _ _
  -- The pop asks about the pointer that the push has left, which is one lower.
  have hbelow : registers.stackPointer - 1 < Registers.stackTop ↔
      registers.stackPointer ≤ Registers.stackTop := by
    rw [UInt8.lt_iff_toNat_lt, UInt8.le_iff_toNat_le]
    omega
  split
  · next hle =>
    rw [popInPlace_of_lt _ (hpointer.symm ▸ hbelow.mpr hle), hpointer,
      Registers.setStackPointer_setStackPointer, UInt8.sub_add_cancel,
      Registers.setStackPointer_stackPointer, Memory.cell_setCell, if_pos rfl]
  · next hgt => exact popInPlace_of_not_lt _ (hpointer.symm ▸ mt hbelow.mp hgt)

/-- Push undoes pop if it has room for the byte. -/
theorem pushInPlace_of_pop (memory : Memory) (h : registers.stackPointer < Registers.stackTop)
    (limit : UInt8) :
    pushInPlace memory (registers.setStackPointer (registers.stackPointer + 1)) limit
        (memory.cell registers.stackPointer) =
      if limit ≤ registers.stackPointer then (memory, registers, .ok registers.stackPointer)
      else (memory, registers.setStackPointer (registers.stackPointer + 1),
        .error (.stackOverflow limit)) := by
  have hpointer : (registers.setStackPointer (registers.stackPointer + 1)).stackPointer =
      registers.stackPointer + 1 := Registers.stackPointer_setStackPointer _ _
  -- Below the top the pointer does not wrap around.
  have hsucc : (registers.stackPointer + 1).toNat = registers.stackPointer.toNat + 1 := by
    have htop : registers.stackPointer.toNat < 0xF4 := UInt8.lt_iff_toNat_lt.mp h
    rw [UInt8.toNat_add, UInt8.toNat_one, Nat.mod_eq_of_lt (by omega)]
  have hroom : limit < registers.stackPointer + 1 ↔ limit ≤ registers.stackPointer := by
    rw [UInt8.lt_iff_toNat_lt, UInt8.le_iff_toNat_le, hsucc]
    omega
  split
  · next hle =>
    rw [pushInPlace_of_lt _ (hpointer.symm ▸ hroom.mpr hle), hpointer,
      Registers.setStackPointer_setStackPointer, UInt8.add_sub_cancel,
      Registers.setStackPointer_stackPointer, Memory.setCell_cell]
  · next hgt => exact pushInPlace_of_not_lt _ (hpointer.symm ▸ mt hroom.mp hgt) _

/-- **Push and pop over the whole range of the stack pointer.** In place they are what the
    machine uses. A push succeeds exactly above the limit, and then it writes one cell and R7; a
    pop behind it gives the byte and the registers of before if the stack pointer was not above
    `0xF4`, and otherwise fails. A pop succeeds exactly below `0xF4`, and then a push of the byte
    that it gave restores memory and registers, unless the limit has been set above them. What
    fails changes nothing. -/
theorem push_pop_whole_range (memory : Memory) (registers : Registers) (limit value : UInt8) :
    (pushInPlace memory registers limit value =
        match push memory registers limit value with
        | .ok (written, moved) => (written, moved, .ok moved.stackPointer)
        | .error fault => (memory, registers, .error fault)) ∧
    (popInPlace memory registers =
        match pop memory registers with
        | .ok (taken, moved) => (moved, .ok taken)
        | .error fault => (registers, .error fault)) ∧
    (if limit < registers.stackPointer then
      ∃ written moved pointer,
        pushInPlace memory registers limit value = (written, moved, .ok pointer) ∧
        Pushed memory registers value written moved pointer ∧
        popInPlace written moved =
          if registers.stackPointer ≤ 0xF4 then (registers, .ok value)
          else (moved, .error .stackUnderflow)
    else
      pushInPlace memory registers limit value =
        (memory, registers, .error (.stackOverflow limit))) ∧
    if registers.stackPointer < 0xF4 then
      ∃ moved taken, popInPlace memory registers = (moved, .ok taken) ∧
        ∀ limit, pushInPlace memory moved limit taken =
          if limit ≤ registers.stackPointer then
            (memory, registers, .ok registers.stackPointer)
          else (memory, moved, .error (.stackOverflow limit))
    else popInPlace memory registers = (registers, .error .stackUnderflow) := by
  refine ⟨pushInPlace_eq memory registers limit value, popInPlace_eq memory registers, ?_, ?_⟩
  · split
    · next h =>
      exact ⟨_, _, _, pushInPlace_of_lt memory h value, pushed_of_lt memory h value,
        popInPlace_of_push memory h value⟩
    · next h => exact pushInPlace_of_not_lt memory h value
  · split
    · next h => exact ⟨_, _, popInPlace_of_lt memory h, pushInPlace_of_pop memory h⟩
    · next h => exact popInPlace_of_not_lt memory h

end Stack

end ByteMachine
