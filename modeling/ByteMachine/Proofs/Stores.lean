import ByteMachine.Proofs.History
/-!
# Stores

Which cell of memory a step writes. Three instructions store a byte, each a single one,
and every other cell keeps what it holds.

## Main statements

- `cell_of_step`: a step changes no cell but the one that it stores at.
- `room_of_executes`: a byte is put on the stack above the limit only.
-/

namespace ByteMachine

/-- The step carried out an ST to the given address. -/
def Transition.StoresAt (address : UInt8) (transition : Transition) : Prop :=
  transition.carriesOut [.st] = true ∧ transition.before.registerA = address

namespace Machine

/-! ## The cell of an instruction -/

/-- The address that an instruction stores a byte at: ST the one in its first register,
    PUSH and CALL the one below the stack pointer. -/
def storeAddress? (machine : Machine) : Instruction → Option UInt8
  | .st => some machine.registerA
  | .push | .call => some (machine.stackPointer - 1)
  | _ => none

/-- The byte that an instruction stores, if it stores one. -/
def storedByte (machine : Machine) : Instruction → UInt8
  | .st => machine.registerB .st
  | .call => UInt8.ofNat (machine.pc.toNat + 2)
  | _ => machine.registerA

/-- Memory after an instruction is memory before it with at most one cell set. -/
theorem memoryAfter_eq (machine : Machine) (instruction : Instruction) :
    machine.memoryAfter instruction =
      match machine.storeAddress? instruction with
      | some address => machine.memory.setCell address (machine.storedByte instruction)
      | none => machine.memory := by
  cases instruction <;> rfl

theorem cell_memoryAfter_of_ne (machine : Machine) {instruction : Instruction} {address : UInt8}
    (h : machine.storeAddress? instruction ≠ some address) :
    (machine.memoryAfter instruction).cell address = machine.memory.cell address := by
  rw [memoryAfter_eq]
  cases hstore : machine.storeAddress? instruction with
  | none => rfl
  | some target =>
    have hne : target ≠ address := by
      intro heq
      exact h (by rw [hstore, heq])
    simp only [Memory.cell_setCell, if_neg hne]

/-! ## Bytes put on the stack -/

theorem eq_push_or_call {instruction : Instruction} (h : instruction ∈ [.push, .call]) :
    instruction = .push ∨ instruction = .call := by
  simpa only [List.mem_cons, List.not_mem_nil, or_false] using h

theorem room_of_executes {machine : Machine} {instruction : Instruction}
    (hput : instruction ∈ [.push, .call]) (h : machine.Executes instruction) :
    machine.stackLimit < machine.stackPointer := by
  have hmem : Check.room machine ∈ machine.checks instruction := by
    obtain rfl | rfl := eq_push_or_call hput
    · simp [checks]
    · simp [checks]
  have hroom : ¬ machine.stackPointer ≤ machine.stackLimit :=
    of_decide_eq_false (h.passes_check hmem)
  exact UInt8.not_le.mp hroom

/-- The cell below a stack pointer that is above a limit is the one before it. -/
theorem toNat_pred {pointer limit : UInt8} (h : limit < pointer) :
    (pointer - 1).toNat + 1 = pointer.toNat := by
  have hlt : limit.toNat < pointer.toNat := UInt8.lt_iff_toNat_lt.mp h
  have hone : (1 : UInt8) ≤ pointer := by
    rw [UInt8.le_iff_toNat_le, UInt8.toNat_one]
    omega
  rw [UInt8.toNat_sub_of_le pointer 1 hone, UInt8.toNat_one]
  omega

/-! ## Steps -/

variable {machine next : Machine} {sink out : Sink}

/-- What is left of a step that was made when only memory, stack pointer and limit count. -/
theorem memory_of_step (h : machine.step sink = ⟨next, out, .ok ()⟩) :
    ∃ instruction, machine.Executes instruction ∧
      next.memory = machine.memoryAfter instruction ∧
      next.registers = machine.registersAfter instruction ∧
      next.stackLimit = machine.stackLimit := by
  obtain ⟨instruction, hexecutes, -, -, rfl⟩ := exists_executes_of_step h
  exact ⟨instruction, hexecutes, rfl, rfl, rfl⟩

theorem carriesOut_of_executes {instruction : Instruction} (h : machine.Executes instruction)
    (instructions : List Instruction) (after : Machine) :
    Transition.carriesOut instructions ⟨machine, after⟩ = instructions.contains instruction := by
  unfold Transition.carriesOut
  rw [h.found]

/-- A step keeps every cell that no ST stores at and that a byte put on the stack misses. -/
theorem cell_of_step {address : UInt8} (hstep : machine.step sink = ⟨next, out, .ok ()⟩)
    (hspared : ¬ Transition.StoresAt address ⟨machine, next⟩)
    (hmissed : machine.stackLimit < machine.stackPointer → machine.stackPointer - 1 ≠ address) :
    next.memory.cell address = machine.memory.cell address := by
  obtain ⟨instruction, hexecutes, hmemory, -, -⟩ := memory_of_step hstep
  rw [hmemory]
  apply cell_memoryAfter_of_ne
  intro hstore
  cases instruction
  case push | call =>
    have hroom := room_of_executes (by decide) hexecutes
    exact hmissed hroom (Option.some.inj hstore)
  case st =>
    apply hspared
    refine ⟨?_, Option.some.inj hstore⟩
    rw [carriesOut_of_executes hexecutes]
    rfl
  -- No other instruction stores anything.
  all_goals cases hstore

end Machine

end ByteMachine
