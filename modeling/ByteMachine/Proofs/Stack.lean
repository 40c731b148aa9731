import ByteMachine.Proofs.History
import ByteMachine.Proofs.Lifo
/-!
# The stack as a list

The stack of the machine is a stretch of memory below `0xF4` and a pointer to its
start. As long as a program leaves both to the stack instructions, this is a list of
numbers that PUSH and CALL put a number on and POP and RET take the topmost number
from. The list has a capacity, which is what the program leaves free below `0xF4`.

## Main statements

- `act_of_step`: one step acts on the stack as on the list.
- `stack_eq_run`, `stack_refines_lifo`: so does every history of steps.
-/

namespace ByteMachine

/-! ## The stack of the machine -/

/-- Whether an instruction writes to the register that its first operand names. -/
def Instruction.hasDestination : Instruction → Bool
  | .ldi | .ld | .pop => true
  | .cmp => false
  | instruction => instruction.aluOp?.isSome

/-- What a step does to the stack: PUSH puts a register on it and CALL the address behind
    itself, POP takes what it leaves in its register and RET where it goes. -/
def Transition.action? (transition : Transition) : Option Lifo.Action :=
  match transition.before.instruction? with
  | some .push => some (.put transition.before.registerA.toNat)
  | some .call => some (.put (transition.before.pc.toNat + 2))
  | some .pop => some (.take (transition.after.registers.get transition.before.operandA).toNat)
  | some .ret => some (.take transition.after.pc.toNat)
  | _ => none

namespace Machine

/-- The bytes on the stack, topmost first. -/
def stack (machine : Machine) : List Nat :=
  machine.memory.column machine.stackPointer.toNat 0xF4

/-- How many bytes the stack has room for above a program. -/
def stackCapacity (program : Program) : Nat :=
  0xF4 - min program.length 255

/-- The instruction at the program counter leaves the stack to pushes and pops: R7 is not
    its destination, and it does not store a byte on the stack. -/
def SparesStack (machine : Machine) : Prop :=
  ∀ instruction ∈ machine.instruction?,
    (instruction.hasDestination = true → machine.operandA ≠ 7) ∧
    (instruction = .st → ¬ (machine.stackPointer ≤ machine.registerA ∧ machine.registerA < 0xF4))

instance (machine : Machine) : Decidable machine.SparesStack :=
  inferInstanceAs (Decidable (∀ instruction ∈ machine.instruction?, _ ∧ _))

/-! ## Instructions that keep off the stack -/

/-- The arithmetic unit moves the stack pointer only if it writes its result to R7, and a
    comparison has no result. -/
theorem stackPointer_aluAfter (machine : Machine) {instruction : Instruction}
    (h : instruction = .cmp ∨ machine.operandA ≠ 7) :
    (machine.aluAfter instruction).1.stackPointer = machine.stackPointer := by
  have hvalue {op : AluOp} (hop : instruction.aluOp? = some op)
      (hseven : machine.operandA = 7) (y : UInt8) :
      op.value (machine.registers.get machine.operandA) y = machine.stackPointer := by
    obtain rfl | hne := h
    · cases hop
      rw [hseven]
      exact machine.registers.get_seven
    · exact absurd hseven hne
  unfold aluAfter
  cases hop : instruction.aluOp? with
  | none => rfl
  | some op =>
    simp only [AluOp.apply_eq]
    by_cases ha : 8 ≤ machine.operandA
    · rw [if_pos ha]
      rfl
    by_cases hb : 8 ≤ machine.operandB instruction
    · rw [if_neg ha, if_pos hb]
      rfl
    by_cases hzero :
        (op.divides && machine.registers.get (machine.operandB instruction) == 0) = true
    · rw [if_neg ha, if_neg hb, if_pos hzero]
      rfl
    rw [if_neg ha, if_neg hb, if_neg hzero]
    simp only [Registers.stackPointer_put]
    split
    · next hseven => exact hvalue hop hseven _
    · rfl

section Spares

variable {machine : Machine} {instruction : Instruction}

/-- The stack pointer could only be moved as a destination. -/
theorem stackPointer_after_of_spares (hfound : machine.instruction? = some instruction)
    (hspares : machine.SparesStack) (hother : instruction ∉ [.push, .call, .pop, .ret]) :
    (machine.after instruction).stackPointer = machine.stackPointer := by
  obtain ⟨hdestination, -⟩ := hspares instruction hfound
  cases instruction
  case push | call | pop | ret => exact absurd (by decide) hother
  case ldi | ld =>
    have hne := hdestination rfl
    simp only [after, stackPointer, registersAfter, Registers.stackPointer_put, if_neg hne]
  case cmp => exact machine.stackPointer_aluAfter (.inl rfl)
  case add | sub | mul | div | mod | inc | dec | and | not | or | xor | shl | shr =>
    exact machine.stackPointer_aluAfter (.inr (hdestination rfl))
  all_goals rfl

/-- Memory is written by ST alone, and not on the stack. -/
theorem cell_after_of_spares (hfound : machine.instruction? = some instruction)
    (hspares : machine.SparesStack) (hother : instruction ∉ [.push, .call, .pop, .ret])
    {address : UInt8} (hstart : machine.stackPointer ≤ address) (hend : address < 0xF4) :
    (machine.after instruction).memory.cell address = machine.memory.cell address := by
  obtain ⟨-, hstore⟩ := hspares instruction hfound
  cases instruction
  case push | call | pop | ret => exact absurd (by decide) hother
  case st =>
    have hne : machine.registerA ≠ address := by
      intro heq
      apply hstore rfl
      rw [heq]
      exact ⟨hstart, hend⟩
    show (machine.memory.setCell machine.registerA (machine.registerB .st)).cell address = _
    rw [Memory.cell_setCell, if_neg hne]
  all_goals rfl

/-- An instruction that is not one for the stack and spares it leaves it as it is. -/
theorem stack_after_of_spares (hfound : machine.instruction? = some instruction)
    (hspares : machine.SparesStack) (hother : instruction ∉ [.push, .call, .pop, .ret]) :
    (machine.after instruction).stack = machine.stack := by
  unfold stack
  rw [stackPointer_after_of_spares hfound hspares hother]
  apply Memory.column_congr
  intro address hstart hend
  have hnat : (UInt8.ofNat address).toNat = address := by
    rw [UInt8.toNat_ofNat', Nat.mod_eq_of_lt (by omega)]
  have hpointer : machine.stackPointer ≤ UInt8.ofNat address := by
    rw [UInt8.le_iff_toNat_le, hnat]
    exact hstart
  have htop : UInt8.ofNat address < 0xF4 := by
    rw [UInt8.lt_iff_toNat_lt, hnat]
    exact hend
  exact cell_after_of_spares hfound hspares hother hpointer htop

end Spares

/-! ## Instructions for the stack -/

theorem length_stack (machine : Machine) :
    machine.stack.length = 0xF4 - machine.stackPointer.toNat :=
  machine.memory.length_column _ _

/-- A byte stored below the stack pointer, which moves down to it, is on top. -/
theorem stack_of_put {machine next : Machine} {value : UInt8}
    (hpos : 0 < machine.stackPointer.toNat) (htop : machine.stackPointer.toNat ≤ 0xF4)
    (hmemory : next.memory = machine.memory.setCell (machine.stackPointer - 1) value)
    (hpointer : next.stackPointer = machine.stackPointer - 1) :
    next.stack = value.toNat :: machine.stack := by
  unfold stack
  rw [hmemory, hpointer, Memory.column_setCell_pred _ value hpos htop (by omega)]

/-- When the stack pointer moves up by one, the byte that it was at is gone. -/
theorem stack_of_take {machine next : Machine} (hlt : machine.stackPointer.toNat < 0xF4)
    (hmemory : next.memory = machine.memory)
    (hpointer : next.stackPointer = machine.stackPointer + 1) :
    machine.stack = (machine.memory.cell machine.stackPointer).toNat :: next.stack := by
  have hsucc : (machine.stackPointer + 1).toNat = machine.stackPointer.toNat + 1 := by
    rw [UInt8.toNat_add, UInt8.toNat_one, Nat.mod_eq_of_lt (by omega)]
  unfold stack
  rw [hmemory, hpointer, hsucc, Memory.column_of_lt _ hlt, UInt8.ofNat_toNat]

/-- What the machine keeps between steps so that its stack is a list: the limit is that
    of the program, and the stack pointer is not above the top of the stack. -/
structure StackReady (program : Program) (machine : Machine) : Prop where
  limit : machine.stackLimit = limitFor program
  top : machine.stackPointer.toNat ≤ 0xF4

/-- The stack is full exactly if the list is. -/
theorem StackReady.full_iff {program : Program} {machine : Machine}
    (h : machine.StackReady program) :
    machine.stackPointer ≤ machine.stackLimit ↔
      stackCapacity program ≤ machine.stack.length := by
  have hlimit := toNat_limitFor program
  have htop := h.top
  rw [h.limit, UInt8.le_iff_toNat_le, hlimit, length_stack]
  unfold stackCapacity
  omega

/-- The stack is empty exactly if the list is. -/
theorem empty_iff (machine : Machine) :
    Registers.stackTop ≤ machine.stackPointer ↔ machine.stack.length = 0 := by
  have hstack : Registers.stackTop.toNat = 0xF4 := by decide
  rw [UInt8.le_iff_toNat_le, hstack, length_stack]
  omega

/-! ## One step -/

section Step

variable {program : Program} {machine next : Machine}

theorem StackReady.act_of_put (h : machine.StackReady program) {value : UInt8}
    (hroom : (Check.room machine).fails = false)
    (hmemory : next.memory = machine.memory.setCell (machine.stackPointer - 1) value)
    (hpointer : next.stackPointer = machine.stackPointer - 1)
    (hlimit : next.stackLimit = machine.stackLimit) :
    next.StackReady program ∧
      Lifo.act (stackCapacity program) machine.stack (.put value.toNat) = some next.stack := by
  -- Room above the limit is room in the list.
  have hlength : machine.stack.length < stackCapacity program :=
    Nat.not_le.mp (mt h.full_iff.mpr (of_decide_eq_false hroom))
  have htop := h.top
  have hpos : 0 < machine.stackPointer.toNat := by
    unfold stackCapacity at hlength
    rw [length_stack] at hlength
    omega
  have hpred : (machine.stackPointer - 1).toNat = machine.stackPointer.toNat - 1 :=
    UInt8.toNat_sub_of_le _ 1 (UInt8.le_iff_toNat_le.mpr hpos)
  refine ⟨⟨hlimit.trans h.limit, ?_⟩, ?_⟩
  · rw [hpointer, hpred]
    omega
  · rw [stack_of_put hpos htop hmemory hpointer]
    exact Lifo.act_put hlength value.toNat

theorem StackReady.act_of_take (h : machine.StackReady program)
    (hpending : (Check.pending machine).fails = false)
    (hmemory : next.memory = machine.memory)
    (hpointer : next.stackPointer = machine.stackPointer + 1)
    (hlimit : next.stackLimit = machine.stackLimit) :
    next.StackReady program ∧
      Lifo.act (stackCapacity program) machine.stack
        (.take (machine.memory.cell machine.stackPointer).toNat) = some next.stack := by
  have hlength : machine.stack.length ≠ 0 :=
    mt machine.empty_iff.mpr (of_decide_eq_false hpending)
  rw [length_stack] at hlength
  refine ⟨⟨hlimit.trans h.limit, ?_⟩, ?_⟩
  · rw [hpointer, UInt8.toNat_add, UInt8.toNat_one, Nat.mod_eq_of_lt (by omega)]
    omega
  · rw [stack_of_take (by omega) hmemory hpointer]
    exact Lifo.act_take _ next.stack

theorem StackReady.act_of_push (h : machine.StackReady program)
    (hexecutes : machine.Executes .push) :
    (machine.after .push).StackReady program ∧
      Lifo.act (stackCapacity program) machine.stack (.put machine.registerA.toNat) =
        some (machine.after .push).stack := by
  have hroom : (Check.room machine).fails = false := hexecutes.passes_check (by simp [checks])
  have hpointer : (machine.after .push).stackPointer = machine.stackPointer - 1 :=
    Registers.stackPointer_setStackPointer _ _
  exact h.act_of_put hroom rfl hpointer rfl

/-- The check of the return address makes it a byte. -/
theorem StackReady.act_of_call (h : machine.StackReady program)
    (hexecutes : machine.Executes .call) :
    (machine.after .call).StackReady program ∧
      Lifo.act (stackCapacity program) machine.stack (.put (machine.pc.toNat + 2)) =
        some (machine.after .call).stack := by
  have hroom : (Check.room machine).fails = false := hexecutes.passes_check (by simp [checks])
  have hbyte : (UInt8.ofNat (machine.pc.toNat + 2)).toNat = machine.pc.toNat + 2 := by
    rw [UInt8.toNat_ofNat', Nat.mod_eq_of_lt hexecutes.returnAddress_lt]
  have hpointer : (machine.after .call).stackPointer = machine.stackPointer - 1 :=
    Registers.stackPointer_setStackPointer _ _
  rw [← hbyte]
  exact h.act_of_put hroom rfl hpointer rfl

/-- The byte that POP takes ends up in its register, unless that is R7. -/
theorem StackReady.act_of_pop (h : machine.StackReady program)
    (hexecutes : machine.Executes .pop) (hne : machine.operandA ≠ 7) :
    (machine.after .pop).StackReady program ∧
      Lifo.act (stackCapacity program) machine.stack
          (.take ((machine.after .pop).registers.get machine.operandA).toNat) =
        some (machine.after .pop).stack := by
  have hpending : (Check.pending machine).fails = false :=
    hexecutes.passes_check (by simp [checks])
  have hregister : (Check.register machine.operandA).fails = false :=
    hexecutes.passes_check (by simp [checks])
  have hdelivered : (machine.after .pop).registers.get machine.operandA =
      machine.memory.cell machine.stackPointer :=
    Registers.get_put_self _ (of_decide_eq_false hregister) _
  have hpointer : (machine.after .pop).stackPointer = machine.stackPointer + 1 := by
    simp only [stackPointer, after, registersAfter, Registers.stackPointer_put, if_neg hne,
      Registers.stackPointer_setStackPointer]
  rw [hdelivered]
  exact h.act_of_take hpending rfl hpointer rfl

/-- The byte that RET takes ends up in the program counter. -/
theorem StackReady.act_of_ret (h : machine.StackReady program)
    (hexecutes : machine.Executes .ret) :
    (machine.after .ret).StackReady program ∧
      Lifo.act (stackCapacity program) machine.stack (.take (machine.pcAfter .ret)) =
        some (machine.after .ret).stack := by
  have hpending : (Check.pending machine).fails = false :=
    hexecutes.passes_check (by simp [checks])
  have hpointer : (machine.after .ret).stackPointer = machine.stackPointer + 1 :=
    Registers.stackPointer_setStackPointer _ _
  exact h.act_of_take hpending rfl hpointer rfl

/-- **A step acts on the stack as on the list**: PUSH and CALL put their number on a list
    that is not full, POP and RET take the one on top and deliver it, and all else leaves
    the list as it is. -/
theorem act_of_step {sink out : Sink} (hready : machine.StackReady program)
    (hspares : machine.SparesStack) (hstep : machine.step sink = ⟨next, out, .ok ()⟩) :
    next.StackReady program ∧
      (Transition.action? ⟨machine, next⟩).toList.foldlM (Lifo.act (stackCapacity program))
        machine.stack = some next.stack := by
  obtain ⟨instruction, hexecutes, -, -, hnext⟩ := exists_executes_of_step hstep
  have hfound := hexecutes.found
  -- The stack does not depend on the program counter, the only thing that is not in the tables.
  have hready_next (h : (machine.after instruction).StackReady program) :
      next.StackReady program := by
    rw [hnext]
    exact ⟨h.limit, h.top⟩
  have hstack_next : next.stack = (machine.after instruction).stack := by rw [hnext]; rfl
  have hregisters : next.registers = (machine.after instruction).registers := by rw [hnext]
  rw [hstack_next]
  by_cases hstack : instruction ∈ [.push, .call, .pop, .ret]
  · -- Each of the four has its action.
    simp only [List.mem_cons, List.not_mem_nil, or_false] at hstack
    obtain rfl | rfl | rfl | rfl := hstack
    · obtain ⟨hafter, hact⟩ := hready.act_of_push hexecutes
      simp only [Transition.action?, hfound]
      exact ⟨hready_next hafter, Lifo.foldlM_singleton hact⟩
    · obtain ⟨hafter, hact⟩ := hready.act_of_call hexecutes
      simp only [Transition.action?, hfound]
      exact ⟨hready_next hafter, Lifo.foldlM_singleton hact⟩
    · obtain ⟨hafter, hact⟩ := hready.act_of_pop hexecutes ((hspares .pop hfound).1 rfl)
      simp only [Transition.action?, hfound, hregisters]
      exact ⟨hready_next hafter, Lifo.foldlM_singleton hact⟩
    · obtain ⟨hafter, hact⟩ := hready.act_of_ret hexecutes
      have hpc : next.pc.toNat = machine.pcAfter .ret := by
        rw [hnext]
        exact (toNat_landing hexecutes.fits).trans (machine.landing_of_not_simple (by decide))
      simp only [Transition.action?, hfound, hpc]
      exact ⟨hready_next hafter, Lifo.foldlM_singleton hact⟩
  · -- All others have none.
    have hpointer := stackPointer_after_of_spares hfound hspares hstack
    have hsame := stack_after_of_spares hfound hspares hstack
    have hnone : Transition.action? ⟨machine, next⟩ = none := by
      simp only [Transition.action?, hfound]
      cases instruction
      case push | call | pop | ret => exact absurd (by decide) hstack
      all_goals rfl
    have htop : (machine.after instruction).stackPointer.toNat ≤ 0xF4 := by
      rw [hpointer]
      exact hready.top
    rw [hnone, hsame]
    exact ⟨hready_next ⟨hready.limit, htop⟩, rfl⟩

end Step

/-! ## Histories -/

/-- **The stack of a run is a list**: from the start of a program on, as long as nothing
    but the stack instructions touches the stack, it is the list that they lead to. -/
theorem stack_eq_run {program : Program} {machine : Machine} {sink rest : Sink}
    {history : List Transition} (hsteps : Steps (ofProgram program) sink history machine rest)
    (hspares : ∀ transition ∈ history, transition.before.SparesStack) :
    machine.StackReady program ∧
      Lifo.run (stackCapacity program) (history.filterMap Transition.action?) =
        some machine.stack := by
  -- By the history; the invariant is that the machine is ready for the next step.
  induction hsteps with
  | refl =>
    -- At the start the pointer is at the top and the list is empty.
    have htop : (ofProgram program).stackPointer.toNat = 0xF4 := rfl
    refine ⟨⟨rfl, Nat.le_of_eq htop⟩, ?_⟩
    unfold stack
    rw [htop, Memory.column_self]
    rfl
  | @snoc history later next rest out _ hstep ih =>
    -- The earlier steps lead to a list, and the last step acts on it.
    obtain ⟨hready, hrun⟩ := ih fun transition hmem =>
      hspares transition (List.mem_append_left _ hmem)
    have hlast : later.SparesStack :=
      hspares ⟨later, next⟩ (List.mem_append_right _ (List.mem_singleton_self _))
    obtain ⟨hafter, hact⟩ := act_of_step hready hlast hstep
    refine ⟨hafter, ?_⟩
    rw [List.filterMap_append, Lifo.run_append hrun]
    exact hact

/-- The actions of a history are as many as the stack instructions in it. -/
theorem countP_action? (history : List Transition) :
    (history.filterMap Transition.action?).countP Lifo.Action.isPut =
        history.countP (·.carriesOut [.push, .call]) ∧
      ((history.filterMap Transition.action?).countP fun action => !action.isPut) =
        history.countP (·.carriesOut [.pop, .ret]) := by
  rw [List.countP_filterMap, List.countP_filterMap]
  constructor
  · congr 1
    funext transition
    unfold Transition.action? Transition.carriesOut
    cases transition.before.instruction? with
    | none => rfl
    | some instruction => cases instruction <;> rfl
  · congr 1
    funext transition
    unfold Transition.action? Transition.carriesOut
    cases transition.before.instruction? with
    | none => rfl
    | some instruction => cases instruction <;> rfl

/-- What PUSH and CALL answer once their other checks have passed. -/
theorem result_of_put {machine : Machine} {instruction : Instruction}
    (hput : instruction ∈ [.push, .call]) (hfound : machine.instruction? = some instruction)
    (hfits : machine.pc.toNat + instruction.operandCount < 256) (ha : ¬ 8 ≤ machine.operandA)
    (hreturn : instruction = .call → machine.pc.toNat ≠ 254) (sink : Sink) :
    (machine.step sink).result =
      if machine.stackPointer ≤ machine.stackLimit then
        .error (.stackOverflow machine.stackLimit)
      else .ok () := by
  simp only [List.mem_cons, List.not_mem_nil, or_false] at hput
  obtain rfl | rfl := hput
  · rw [result_of_silent hfound hfits rfl]
    unfold refusal?
    simp only [checks, Check.register, Check.room, Check.verdict_check, if_neg ha,
      Check.verdict_nil]
  · rw [result_of_silent hfound hfits rfl]
    unfold refusal?
    simp only [checks, Check.register, Check.returnAddress, Check.room, Check.verdict_check,
      if_neg ha, if_neg (hreturn rfl), Check.verdict_nil]

/-- What POP and RET answer, POP once its register has been found good. -/
theorem result_of_take {machine : Machine} {instruction : Instruction}
    (htake : instruction ∈ [.pop, .ret]) (hfound : machine.instruction? = some instruction)
    (hfits : machine.pc.toNat + instruction.operandCount < 256)
    (ha : instruction = .pop → ¬ 8 ≤ machine.operandA) (sink : Sink) :
    (machine.step sink).result =
      if Registers.stackTop ≤ machine.stackPointer then .error .stackUnderflow else .ok () := by
  simp only [List.mem_cons, List.not_mem_nil, or_false] at htake
  obtain rfl | rfl := htake
  · rw [result_of_silent hfound hfits rfl]
    unfold refusal?
    simp only [checks, Check.register, Check.pending, Check.verdict_check, if_neg (ha rfl),
      Check.verdict_nil]
  · rw [result_of_silent hfound hfits rfl]
    unfold refusal?
    simp only [checks, Check.pending, Check.verdict_check, Check.verdict_nil]

/-- **The machine stack is a list with a capacity.** Take any history of successful steps
    from the start of a program in which only the stack instructions touch the stack. Run
    on an empty list, its pushes and pops succeed, each POP and RET delivering the number
    on top, and the list they lead to is what memory holds from `SP` up to `0xF4`. The next
    PUSH or CALL overflows exactly if the list is full, the next POP or RET underflows
    exactly if it is empty. -/
theorem stack_refines_lifo {program : Program} {machine : Machine} {sink rest : Sink}
    {history : List Transition} (hsteps : Steps (ofProgram program) sink history machine rest)
    (hspares : ∀ transition ∈ history, transition.before.SparesStack) :
    ∃ stack : List Nat,
      Lifo.run (stackCapacity program) (history.filterMap Transition.action?) = some stack ∧
      history.countP (·.carriesOut [.push, .call]) =
        history.countP (·.carriesOut [.pop, .ret]) + stack.length ∧
      machine.stackPointer.toNat + stack.length = 0xF4 ∧
      min (min program.length 255) 0xF4 ≤ machine.stackPointer.toNat ∧
      machine.memory.column machine.stackPointer.toNat 0xF4 = stack ∧
      (∀ instruction ∈ [Instruction.push, .call], machine.instruction? = some instruction →
        machine.pc.toNat + instruction.operandCount < 256 → ¬ 8 ≤ machine.operandA →
        (instruction = .call → machine.pc.toNat ≠ 254) → ∀ out,
        (machine.step out).result =
          if stack.length = stackCapacity program then
            .error (.stackOverflow (limitFor program))
          else .ok ()) ∧
      (∀ instruction ∈ [Instruction.pop, .ret], machine.instruction? = some instruction →
        machine.pc.toNat + instruction.operandCount < 256 →
        (instruction = .pop → ¬ 8 ≤ machine.operandA) → ∀ out,
        (machine.step out).result =
          if stack.length = 0 then .error .stackUnderflow else .ok ()) := by
  obtain ⟨hready, hrun⟩ := stack_eq_run hsteps hspares
  obtain ⟨hputs, htakes⟩ := countP_action? history
  have hcount := Lifo.count_of_foldlM hrun
  have hcapacity := Lifo.length_le_of_foldlM (Nat.zero_le _) hrun
  have hlength := machine.length_stack
  have htop := hready.top
  rw [hputs, htakes, List.length_nil] at hcount
  refine ⟨machine.stack, hrun, by omega, by omega, ?_, rfl, ?_, ?_⟩
  · unfold stackCapacity at hcapacity
    omega
  · intro instruction hput hfound hfits ha hreturn out
    have hfull : machine.stackPointer ≤ machine.stackLimit ↔
        machine.stack.length = stackCapacity program := by
      rw [hready.full_iff]
      omega
    rw [result_of_put hput hfound hfits ha hreturn, hready.limit]
    rw [hready.limit] at hfull
    simp only [hfull]
  · intro instruction htake hfound hfits ha out
    rw [result_of_take htake hfound hfits ha]
    simp only [machine.empty_iff]

/-- After a PUSH and a POP the stack is empty again, and the next POP underflows. -/
theorem stack_refines_lifo_push_pop :
    let start := ofProgram ⟨[0x45, 1, 0x46, 2, 0x46, 2], by decide⟩
    let pushed := (start.step .unlimited).machine
    let popped := (pushed.step .unlimited).machine
    Steps start .unlimited [⟨start, pushed⟩, ⟨pushed, popped⟩] popped .unlimited ∧
      popped.stackPointer.toNat = 0xF4 ∧
      ∀ out, (popped.step out).result = .error .stackUnderflow := by
  intro start pushed popped
  have hpush : start.step .unlimited = ⟨pushed, .unlimited, .ok ()⟩ :=
    step_of_clear (by decide +kernel) (by decide +kernel)
  have hpop : pushed.step .unlimited = ⟨popped, .unlimited, .ok ()⟩ :=
    step_of_clear (by decide +kernel) (by decide +kernel)
  have hsteps := (Steps.refl.snoc hpush).snoc hpop
  have hspares : ∀ transition ∈ [⟨start, pushed⟩, (⟨pushed, popped⟩ : Transition)],
      transition.before.SparesStack := by
    decide +kernel
  obtain ⟨stack, -, hcount, hpointer, -, -, -, htake⟩ := stack_refines_lifo hsteps hspares
  have hempty : stack.length = 0 := by
    have hone : [⟨start, pushed⟩, (⟨pushed, popped⟩ : Transition)].countP
        (·.carriesOut [.push, .call]) = 1 := by decide +kernel
    have hother : [⟨start, pushed⟩, (⟨pushed, popped⟩ : Transition)].countP
        (·.carriesOut [.pop, .ret]) = 1 := by decide +kernel
    simp only [List.nil_append, List.singleton_append] at hcount
    omega
  refine ⟨hsteps, by omega, ?_⟩
  intro out
  rw [htake .pop (by decide) (by decide +kernel) (by decide +kernel) (by decide +kernel), hempty]
  rfl

end Machine

end ByteMachine
