import ByteMachine.Proofs.Stores
/-!
# Calls and returns

A CALL leaves the address behind it in the cell below the stack pointer. As long as the
stack pointer stays at or below that cell before each step, the stack instructions store
below it, so only an ST could change the address. A RET that finds the stack pointer at
the cell then goes on behind the CALL, whatever the steps between the two have been.

## Main statements

- `cell_of_steps`: a history keeps a cell that the stack pointer stays at or below.
- `ret_resumes_after_call`: the RET that belongs to a CALL goes on behind it.
-/

namespace ByteMachine.Machine

variable {machine next : Machine} {sink out : Sink}

/-! ## The cell of the return address -/

/-- What a CALL leaves: the address behind it, which is one of memory, in the cell that the
    stack pointer has moved down to. -/
theorem cell_of_call (hfound : machine.instruction? = some .call)
    (hstep : machine.step sink = ⟨next, out, .ok ()⟩) :
    machine.pc.toNat + 2 < 256 ∧ machine.stackLimit < machine.stackPointer ∧
      next.memory.cell (machine.stackPointer - 1) = UInt8.ofNat (machine.pc.toNat + 2) := by
  obtain ⟨instruction, hexecutes, hmemory, -, -⟩ := memory_of_step hstep
  obtain rfl : instruction = .call := Option.some.inj (hexecutes.found.symm.trans hfound)
  have hroom := room_of_executes (by decide) hexecutes
  refine ⟨hexecutes.returnAddress_lt, hroom, ?_⟩
  rw [hmemory, memoryAfter_eq]
  exact (Memory.cell_setCell _ _ _ _).trans (if_pos rfl)

/-- Every history keeps a cell that the stack pointer stays at or below before each of its
    steps, unless one of them is an ST to it. -/
theorem cell_of_steps {later : Machine} {rest : Sink} {history : List Transition}
    {address : UInt8} (hsteps : Steps machine sink history later rest)
    (hbelow : ∀ transition ∈ history, transition.before.stackPointer ≤ address)
    (hspared : ∀ transition ∈ history, ¬ transition.StoresAt address) :
    later.memory.cell address = machine.memory.cell address := by
  -- By the history; each step keeps the cell by itself.
  induction hsteps with
  | refl => rfl
  | @snoc history later next rest out _ hstep ih =>
    obtain ⟨hbelow, hlastBelow⟩ := List.forall_mem_append.mp hbelow
    obtain ⟨hspared, hlastSpared⟩ := List.forall_mem_append.mp hspared
    rw [List.forall_mem_singleton] at hlastBelow hlastSpared
    have hmissed : later.stackLimit < later.stackPointer → later.stackPointer - 1 ≠ address := by
      -- A byte put on the stack goes below the stack pointer, so below the cell.
      intro hroom htarget
      have hpred := toNat_pred hroom
      have hle : later.stackPointer.toNat ≤ address.toNat := UInt8.le_iff_toNat_le.mp hlastBelow
      rw [htarget] at hpred
      omega
    rw [cell_of_step hstep hlastSpared hmissed]
    exact ih hbelow hspared

/-! ## The return -/

/-- RET succeeds below the top of the stack, goes to the byte at the stack pointer and moves
    the stack pointer up by one. -/
theorem step_of_ret (hfound : machine.instruction? = some .ret)
    (hpending : machine.stackPointer.toNat < 0xF4) (sink : Sink) :
    (machine.step sink).result = .ok () ∧
      (machine.step sink).machine.pc.toNat =
        (machine.memory.cell machine.stackPointer).toNat ∧
      (machine.step sink).machine.stackPointer = machine.stackPointer + 1 := by
  obtain ⟨hlt, -⟩ := instruction?_eq_some_iff.mp hfound
  have hzero : Instruction.ret.operandCount = 0 := by decide
  have hbelow : ¬ Registers.stackTop ≤ machine.stackPointer := by
    rw [UInt8.le_iff_toNat_le]
    exact Nat.not_le.mpr hpending
  have hpasses : machine.refusal? .ret = none := by
    simp only [refusal?, checks, Check.pending, Check.firstFault, hbelow, decide_false,
      Bool.false_eq_true, if_false]
  have hfits : machine.pc.toNat + Instruction.ret.operandCount < 256 := by omega
  have hadmits : sink.admits (machine.outputAfter .ret) = true := sink.admits_empty
  rw [step_of_executes ⟨hfound, hfits, hpasses⟩, if_pos hadmits]
  refine ⟨rfl, ?_, Registers.stackPointer_setStackPointer _ _⟩
  exact (toNat_landing hfits).trans (machine.landing_of_not_simple (by decide))

/-- **The RET that belongs to a CALL goes on behind it.** After a CALL with the stack
    pointer at `0xF4` or below, let any successful steps follow that find the stack pointer
    below where the CALL found it and store nothing at the cell that the CALL wrote, be
    they nested calls, pushes, stores into the code or moves of R7. If they lead to a RET
    with the stack pointer at that cell, then the RET succeeds, goes on behind the CALL and
    leaves the stack pointer as the CALL found it. -/
theorem ret_resumes_after_call {machine called later : Machine} {sink out start rest : Sink}
    {history : List Transition} (hcall : machine.instruction? = some .call)
    (hstep : machine.step sink = ⟨called, out, .ok ()⟩)
    (htop : machine.stackPointer ≤ 0xF4) (hsteps : Steps called start history later rest)
    (hbelow : ∀ transition ∈ history,
      transition.before.stackPointer ≤ machine.stackPointer - 1)
    (hspared : ∀ transition ∈ history, ¬ transition.StoresAt (machine.stackPointer - 1))
    (hpointer : later.stackPointer = machine.stackPointer - 1)
    (hret : later.instruction? = some .ret) (last : Sink) :
    (later.step last).result = .ok () ∧
      (later.step last).machine.pc.toNat = machine.pc.toNat + 2 ∧
      (later.step last).machine.stackPointer = machine.stackPointer := by
  obtain ⟨hreturn, hroom, hstored⟩ := cell_of_call hcall hstep
  have hkept := cell_of_steps hsteps hbelow hspared
  have htopNat : machine.stackPointer.toNat ≤ 0xF4 := UInt8.le_iff_toNat_le.mp htop
  have hpred := toNat_pred hroom
  have hpending : later.stackPointer.toNat < 0xF4 := by
    rw [hpointer]
    omega
  obtain ⟨hok, hpc, hup⟩ := step_of_ret hret hpending last
  refine ⟨hok, ?_, ?_⟩
  · -- The byte at the stack pointer is still the one that the CALL put there.
    rw [hpc, hpointer, hkept, hstored, UInt8.toNat_ofNat']
    exact Nat.mod_eq_of_lt hreturn
  · rw [hup, hpointer, UInt8.sub_add_cancel]

/-- A subroutine that pushes and pops a byte before it returns. -/
theorem ret_resumes_after_call_push_pop :
    let machine : Machine :=
      { ofProgram ⟨[0x50, 0, 0x01, 0x45, 0, 0x46, 1, 0x11], by decide⟩ with
        registers := Registers.initial.put 0 3 }
    let called := (machine.step .unlimited).machine
    let pushed := (called.step .unlimited).machine
    let popped := (pushed.step .unlimited).machine
    (machine.instruction? = some .call ∧ machine.stackPointer ≤ 0xF4 ∧
      machine.step .unlimited = ⟨called, .unlimited, .ok ()⟩ ∧
      Steps called .unlimited [⟨called, pushed⟩, ⟨pushed, popped⟩] popped .unlimited ∧
      popped.stackPointer = machine.stackPointer - 1 ∧ popped.instruction? = some .ret) ∧
    (popped.step .unlimited).result = .ok () ∧
      (popped.step .unlimited).machine.pc.toNat = machine.pc.toNat + 2 ∧
      (popped.step .unlimited).machine.stackPointer = machine.stackPointer := by
  intro machine called pushed popped
  have hcall : machine.step .unlimited = ⟨called, .unlimited, .ok ()⟩ :=
    step_of_clear (by decide +kernel) (by decide +kernel)
  have hpush : called.step .unlimited = ⟨pushed, .unlimited, .ok ()⟩ :=
    step_of_clear (by decide +kernel) (by decide +kernel)
  have hpop : pushed.step .unlimited = ⟨popped, .unlimited, .ok ()⟩ :=
    step_of_clear (by decide +kernel) (by decide +kernel)
  have hsteps : Steps called .unlimited [⟨called, pushed⟩, ⟨pushed, popped⟩] popped .unlimited :=
    (Steps.refl.snoc hpush).snoc hpop
  have hfound : machine.instruction? = some .call := by decide +kernel
  have hret : popped.instruction? = some .ret := by decide +kernel
  have hpointer : popped.stackPointer = machine.stackPointer - 1 := by decide +kernel
  have htop : machine.stackPointer ≤ 0xF4 := by decide +kernel
  refine ⟨⟨hfound, htop, hcall, hsteps, hpointer, hret⟩,
    ret_resumes_after_call hfound hcall htop hsteps ?_ ?_ hpointer hret .unlimited⟩
  · decide +kernel
  · -- Neither of the two is an ST.
    have hnone : ∀ transition ∈ [⟨called, pushed⟩, (⟨pushed, popped⟩ : Transition)],
        transition.carriesOut [.st] = false := by decide +kernel
    intro transition hmem hstores
    exact Bool.eq_false_iff.mp (hnone transition hmem) hstores.1

end ByteMachine.Machine
