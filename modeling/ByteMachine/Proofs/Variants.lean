import ByteMachine.Proofs.Output
import ByteMachine.Proofs.Stores
/-!
# Variants of a machine

Two machines side by side that differ in their memory, in the opcode that was fetched last
and in the number of steps so far. The last two never decide anything. Of memory, a step
reads a few cells only: the bytes of its instruction and at most one cell besides. If the
two machines hold the same in these cells, then the step does the same on both of them.

## Main definitions

- `readAddresses`: the cells that an instruction reads.
- `variant`: a machine with another memory and another past.

## Main statements

- `step_variant`: a step that succeeds does the same on every variant that agrees in the
  cells that it reads.
-/

namespace ByteMachine

namespace Machine

/-! ## The cells of a step -/

/-- The cells that an instruction reads: its opcode and operands, the source of LD, and for
    POP and RET the cell at the stack pointer. -/
def readAddresses (machine : Machine) (instruction : Instruction) : List UInt8 :=
  (List.range instruction.width).map (fun offset => UInt8.ofNat (machine.pc.toNat + offset)) ++
    match instruction with
    | .ld => [machine.registerB .ld]
    | .pop | .ret => [machine.stackPointer]
    | _ => []

end Machine

/-- The cells that a step reads. -/
def Transition.reads (transition : Transition) : List UInt8 :=
  match transition.before.instruction? with
  | some instruction => transition.before.readAddresses instruction
  | none => []

/-- The cell that a step writes, if it writes one. -/
def Transition.writes? (transition : Transition) : Option UInt8 :=
  transition.before.instruction?.bind transition.before.storeAddress?

namespace Machine

/-- The machine with another memory and another past: all that its program can tell apart is
    what the memory holds. -/
def variant (machine : Machine) (memory : Memory) (ir : UInt8) (cycles : UInt64) : Machine :=
  { machine with memory, ir, cycles }

/-! ## The tables of a variant -/

section Tables

variable {machine : Machine} {instruction : Instruction} {memory : Memory}
  (hreads : ∀ address ∈ machine.readAddresses instruction,
    memory.cell address = machine.memory.cell address)
  (ir : UInt8) (cycles : UInt64)
include hreads

/-- A variant finds the same bytes at the program counter. -/
theorem ahead_variant {offset : Nat} (h : offset < instruction.width) :
    (machine.variant memory ir cycles).ahead offset = machine.ahead offset := by
  apply hreads
  apply List.mem_append_left
  exact List.mem_map.mpr ⟨offset, List.mem_range.mpr h, rfl⟩

theorem operandA_variant (h : 0 < instruction.operandCount) :
    (machine.variant memory ir cycles).operandA = machine.operandA := by
  apply ahead_variant hreads
  unfold Instruction.width
  omega

theorem operandB_variant (h : 0 < instruction.operandCount) :
    (machine.variant memory ir cycles).operandB instruction = machine.operandB instruction := by
  apply ahead_variant hreads
  unfold Instruction.width
  split <;> omega

theorem registerA_variant (h : 0 < instruction.operandCount) :
    (machine.variant memory ir cycles).registerA = machine.registerA :=
  congrArg machine.registers.get (operandA_variant hreads ir cycles h)

theorem registerB_variant (h : 0 < instruction.operandCount) :
    (machine.variant memory ir cycles).registerB instruction = machine.registerB instruction :=
  congrArg machine.registers.get (operandB_variant hreads ir cycles h)

/-- The checks of an instruction look at registers, the limit and the program counter. -/
theorem checks_variant :
    (machine.variant memory ir cycles).checks instruction = machine.checks instruction := by
  rcases Nat.eq_zero_or_pos instruction.operandCount with hnone | hcount
  · -- Without operands there is nothing in memory that a check could look at.
    cases instruction
    case nop | hlt | ret => rfl
    all_goals cases hnone
  have hA := operandA_variant hreads ir cycles hcount
  have hB := operandB_variant hreads ir cycles hcount
  have hregisterB := registerB_variant hreads ir cycles hcount
  unfold checks
  rw [hA, hB, hregisterB]
  rfl

/-- A variant carries out the same instruction. -/
theorem executes_variant (h : machine.Executes instruction) :
    (machine.variant memory ir cycles).Executes instruction where
  found := by
    obtain ⟨hlt, hopcode⟩ := instruction?_eq_some_iff.mp h.found
    refine instruction?_eq_some_iff.mpr ⟨hlt, ?_⟩
    rw [hopcode]
    exact (ahead_variant hreads ir cycles (by unfold Instruction.width; omega)).symm
  fits := h.fits
  passes := by
    unfold refusal?
    rw [checks_variant hreads ir cycles]
    exact h.passes

theorem aluAfter_variant :
    (machine.variant memory ir cycles).aluAfter instruction = machine.aluAfter instruction := by
  unfold aluAfter
  cases hop : instruction.aluOp? with
  | none => rfl
  | some op =>
    have hcount : 0 < instruction.operandCount := by
      cases instruction <;> cases hop <;> decide
    simp only [operandA_variant hreads ir cycles hcount, operandB_variant hreads ir cycles hcount]
    rfl

theorem registersAfter_variant :
    (machine.variant memory ir cycles).registersAfter instruction =
      machine.registersAfter instruction := by
  have halu := congrArg Prod.fst (aluAfter_variant hreads ir cycles)
  cases instruction
  case ldi =>
    show machine.registers.put (machine.variant memory ir cycles).operandA
      ((machine.variant memory ir cycles).operandB .ldi) = _
    rw [operandA_variant hreads ir cycles (by decide),
      operandB_variant hreads ir cycles (by decide)]
    rfl
  case ld =>
    have hsource : memory.cell (machine.registerB .ld) =
        machine.memory.cell (machine.registerB .ld) :=
      hreads _ (by simp [readAddresses])
    show machine.registers.put (machine.variant memory ir cycles).operandA
      (memory.cell ((machine.variant memory ir cycles).registerB .ld)) = _
    rw [operandA_variant hreads ir cycles (by decide),
      registerB_variant hreads ir cycles (by decide), hsource]
    rfl
  case pop =>
    have htop : memory.cell machine.stackPointer = machine.memory.cell machine.stackPointer :=
      hreads _ (by simp [readAddresses])
    show (machine.registers.setStackPointer (machine.stackPointer + 1)).put
      (machine.variant memory ir cycles).operandA (memory.cell machine.stackPointer) = _
    rw [operandA_variant hreads ir cycles (by decide), htop]
    rfl
  case push | call | ret => rfl
  -- What is left takes its registers from the arithmetic unit.
  all_goals exact halu

theorem flagsAfter_variant :
    (machine.variant memory ir cycles).flagsAfter instruction = machine.flagsAfter instruction :=
  congrArg Prod.snd (aluAfter_variant hreads ir cycles)

theorem pcAfter_variant :
    (machine.variant memory ir cycles).pcAfter instruction = machine.pcAfter instruction := by
  cases instruction
  case ret =>
    have htop : memory.cell machine.stackPointer = machine.memory.cell machine.stackPointer :=
      hreads _ (by simp [readAddresses])
    exact congrArg UInt8.toNat htop
  case call =>
    exact congrArg UInt8.toNat (registerA_variant hreads ir cycles (by decide))
  case jmp | jeq | jne | jgt | jlt | jge | jle =>
    unfold pcAfter
    rw [registerA_variant hreads ir cycles (by decide)]
    rfl
  all_goals rfl

theorem landing_variant :
    (machine.variant memory ir cycles).landing instruction = machine.landing instruction := by
  unfold landing
  rw [pcAfter_variant hreads ir cycles]
  rfl

theorem runningAfter_variant :
    (machine.variant memory ir cycles).runningAfter instruction =
      machine.runningAfter instruction := by
  cases instruction <;> rfl

theorem outputAfter_variant :
    (machine.variant memory ir cycles).outputAfter instruction =
      machine.outputAfter instruction := by
  cases instruction
  case prn =>
    unfold outputAfter
    rw [registerA_variant hreads ir cycles (by decide)]
  all_goals rfl

/-- A variant stores the same byte in the same cell. -/
theorem store_variant :
    (machine.variant memory ir cycles).storeAddress? instruction =
        machine.storeAddress? instruction ∧
      (machine.storeAddress? instruction ≠ none →
        (machine.variant memory ir cycles).storedByte instruction =
          machine.storedByte instruction) := by
  cases instruction
  case st =>
    have hA := registerA_variant hreads ir cycles (by decide)
    have hB := registerB_variant hreads ir cycles (by decide)
    exact ⟨congrArg some hA, fun _ => hB⟩
  case push => exact ⟨rfl, fun _ => registerA_variant hreads ir cycles (by decide)⟩
  case call => exact ⟨rfl, fun _ => rfl⟩
  all_goals exact ⟨rfl, fun hstores => absurd rfl hstores⟩

/-- The memories agree after an instruction where they did before, and in the cell that the
    instruction has written. -/
theorem cell_memoryAfter_variant {address : UInt8}
    (h : memory.cell address = machine.memory.cell address ∨
      machine.storeAddress? instruction = some address) :
    ((machine.variant memory ir cycles).memoryAfter instruction).cell address =
      (machine.memoryAfter instruction).cell address := by
  obtain ⟨haddress, hbyte⟩ := store_variant hreads ir cycles
  rw [memoryAfter_eq, memoryAfter_eq, haddress]
  cases hstore : machine.storeAddress? instruction with
  | none =>
    rw [hstore] at h
    rcases h with hsame | hwritten
    · exact hsame
    · cases hwritten
  | some target =>
    have hsame := hbyte (by rw [hstore]; simp)
    simp only [Memory.cell_setCell, hsame]
    split
    · rfl
    · next hne =>
      rcases h with hkept | hwritten
      · exact hkept
      · rw [hstore] at hwritten
        exact absurd (Option.some.inj hwritten) hne

end Tables

/-! ## Steps of a variant -/

variable {machine next : Machine} {sink out into : Sink} {memory : Memory}

/-- **A step does the same on every variant that agrees in the cells that it reads.** It
    succeeds if the sink takes the output, which is the same, and leaves a variant of the
    machine that it leaves otherwise. The two memories agree where they did before, and in the
    cell that the step has written. -/
theorem step_variant (hstep : machine.step sink = ⟨next, out, .ok ()⟩)
    (hreads : ∀ address ∈ Transition.reads ⟨machine, next⟩,
      memory.cell address = machine.memory.cell address)
    (hadmits : into.admits (Transition.output ⟨machine, next⟩) = true)
    (ir : UInt8) (cycles : UInt64) :
    ∃ memoryAfter : Memory,
      (machine.variant memory ir cycles).step into =
        ⟨next.variant memoryAfter next.ir (cycles + 1),
          into.offer (Transition.output ⟨machine, next⟩), .ok ()⟩ ∧
      Transition.output ⟨machine.variant memory ir cycles,
        next.variant memoryAfter next.ir (cycles + 1)⟩ = Transition.output ⟨machine, next⟩ ∧
      ∀ address, memory.cell address = machine.memory.cell address ∨
          Transition.writes? ⟨machine, next⟩ = some address →
        memoryAfter.cell address = next.memory.cell address := by
  obtain ⟨instruction, hexecutes, -, -, rfl⟩ := exists_executes_of_step hstep
  simp only [Transition.reads, Transition.writes?, Transition.output, hexecutes.found,
    Option.bind_some] at hreads hadmits ⊢
  have hvariant := executes_variant hreads ir cycles hexecutes
  have houtput := outputAfter_variant hreads ir cycles
  refine ⟨(machine.variant memory ir cycles).memoryAfter instruction, ?_, ?_, ?_⟩
  · have hahead : (machine.variant memory ir cycles).ahead 0 = machine.ahead 0 :=
      ahead_variant hreads ir cycles (by unfold Instruction.width; omega)
    rw [step_of_executes hvariant, houtput, if_pos hadmits, landing_variant hreads ir cycles]
    unfold after
    rw [registersAfter_variant hreads ir cycles, flagsAfter_variant hreads ir cycles,
      runningAfter_variant hreads ir cycles, hahead]
    rfl
  · rw [hvariant.found]
    exact houtput
  · intro address h
    exact cell_memoryAfter_variant hreads ir cycles h

end Machine

end ByteMachine
