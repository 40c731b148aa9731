import ByteMachine.Machine.Effect
import ByteMachine.Proofs.Faults
/-!
# Effects and the instruction set

The effect of an operation that was decoded at the program counter is what the
instruction set says: its checks are made in their order, and if all of them pass
the fields change as the tables have it. The three parts of the machine are taken
one after the other.

## Main statements

- `AluOp.apply_eq`, `Stack.push_eq`, `Stack.pop_eq`, `Machine.returnAddress_eq`: the
  parts that check on their own, as checks followed by a result.
- `effect_operation`: the effect of the operation at the program counter.
-/

namespace ByteMachine

/-! ## A refusal ends a computation -/

theorem ok_bind {α β : Type} (value : α) (next : α → Except Fault β) :
    (Except.ok value >>= next) = next value := rfl

/-- Two computations in a row succeed exactly if both do. -/
theorem bind_eq_ok_iff {α β : Type} {first : Except Fault α} {next : α → Except Fault β}
    {result : β} :
    (first >>= next) = .ok result ↔ ∃ value, first = .ok value ∧ next value = .ok result := by
  cases first with
  | error fault =>
    constructor
    · intro h
      cases h
    · rintro ⟨value, h, -⟩
      cases h
  | ok value =>
    rw [ok_bind]
    constructor
    · intro h
      exact ⟨value, rfl, h⟩
    · rintro ⟨other, h, hnext⟩
      cases h
      exact hnext

/-- What follows a check is carried out only if the check passes. -/
theorem refusal_bind {α β : Type} (p : Prop) [Decidable p] (fault : Fault) (value : α)
    (next : α → Except Fault β) :
    ((if p then .error fault else .ok value) >>= next) =
      if p then .error fault else next value := by
  split <;> rfl

/-! ## The parts that check on their own -/

/-- The arithmetic unit checks both registers before the divisor. -/
theorem AluOp.apply_eq (op : AluOp) (a b : UInt8) (registers : Registers) (flags : Flags) :
    op.apply a b registers flags =
      if 8 ≤ a then .error (.registerIndex a)
      else if 8 ≤ b then .error (.registerIndex b)
      else if op.divides && registers.get b == 0 then .error .divideByZero
      else .ok (registers.put a (op.value (registers.get a) (registers.get b)),
        op.flagsAfter (registers.get a) (registers.get b) flags) := by
  unfold AluOp.apply
  rw [Registers.read_eq, refusal_bind, Registers.read_eq, refusal_bind]
  by_cases ha : 8 ≤ a
  · rw [if_pos ha, if_pos ha]
  -- The write looks at its register once more and finds it good.
  rw [if_neg ha, if_neg ha, Registers.write_eq, if_neg ha]
  cases op.divides && registers.get b == 0 <;> rfl

theorem Stack.push_eq (memory : Memory) (registers : Registers) (limit value : UInt8) :
    Stack.push memory registers limit value =
      if registers.stackPointer ≤ limit then .error (.stackOverflow limit)
      else .ok (memory.setCell (registers.stackPointer - 1) value,
        registers.setStackPointer (registers.stackPointer - 1)) := by
  split
  · next h => exact Stack.push_of_not_lt memory (UInt8.not_lt.mpr h) value
  · next h => exact Stack.push_of_lt memory (UInt8.not_le.mp h) value

theorem Stack.pop_eq (memory : Memory) (registers : Registers) :
    Stack.pop memory registers =
      if Registers.stackTop ≤ registers.stackPointer then .error .stackUnderflow
      else .ok (memory.cell registers.stackPointer,
        registers.setStackPointer (registers.stackPointer + 1)) := by
  split
  · next h => exact Stack.pop_of_not_lt memory (UInt8.not_lt.mpr h)
  · next h => exact Stack.pop_of_lt memory (UInt8.not_le.mp h)

theorem Machine.returnAddress_eq (address : Nat) :
    Machine.returnAddress address =
      if 256 ≤ address then .error (.memoryAddress address)
      else .ok (UInt8.ofNat address) := by
  unfold Machine.returnAddress
  split
  · next h => rw [if_neg (Nat.not_le.mpr h)]
  · next h => rw [if_pos (Nat.not_lt.mp h)]

/-! ## Flags and jumps -/

/-- Reading a bit of a byte is reading a binary digit of its number. -/
theorem Bit.get_eq_testBit (byte : UInt8) {position : UInt8} (h : position.toNat < 8) :
    Bit.get byte position = byte.toNat.testBit position.toNat := by
  have hmod : position.toNat % 8 = position.toNat := Nat.mod_eq_of_lt h
  unfold Bit.get Nat.testBit
  -- Both sides shift the byte and look at the lowest bit.
  rw [Bool.eq_iff_iff, beq_iff_eq, bne_iff_ne, ← UInt8.toNat_inj, UInt8.toNat_and,
    UInt8.toNat_shiftRight, hmod]
  simp only [UInt8.toNat_one, Nat.and_one_is_mod, Nat.one_and_eq_mod_two]
  omega

/-- The flags meet the condition of a jump exactly if the table says that it jumps. -/
theorem Flags.satisfies_eq_jumps (flags : Flags) {instruction : Instruction}
    {condition : Condition} (h : instruction.condition? = some condition) :
    flags.satisfies condition = Machine.jumps flags.bits instruction := by
  have hequal : flags.equal = flags.bits.toNat.testBit 0 := Bit.get_eq_testBit _ (by decide)
  have hgreater : flags.greater = flags.bits.toNat.testBit 1 := Bit.get_eq_testBit _ (by decide)
  have hless : flags.less = flags.bits.toNat.testBit 2 := Bit.get_eq_testBit _ (by decide)
  cases instruction <;> cases h <;>
    simp only [Flags.satisfies, Machine.jumps, hequal, hgreater, hless]

namespace Machine

/-! ## The operation at the program counter -/

/-- The operation that the bytes at the program counter are decoded to. -/
def operation (machine : Machine) (instruction : Instruction) : Operation where
  instruction
  category := instruction.category
  operandCount := instruction.operandCount
  raw := machine.ahead 0
  first := if 0 < instruction.operandCount then machine.ahead 1 else 0
  second := if 1 < instruction.operandCount then machine.ahead 2 else 0

theorem a_operation (machine : Machine) {instruction : Instruction}
    (h : 0 < instruction.operandCount) :
    (machine.operation instruction).a = machine.operandA := by
  simp only [Operation.a, operation, operandA, h, if_true]

theorem b_operation (machine : Machine) {instruction : Instruction}
    (h : 0 < instruction.operandCount) :
    (machine.operation instruction).b = machine.operandB instruction := by
  simp only [Operation.b, operation, operandB, h, if_true]
  split
  · rfl
  · next htwo => rw [if_pos (show 1 < instruction.operandCount by omega)]

@[simp] theorem instruction_operation (machine : Machine) (instruction : Instruction) :
    (machine.operation instruction).instruction = instruction := rfl

/-- Behind an operation with all its operands in memory no sum is too large. -/
theorem behind_operation {machine : Machine} {instruction : Instruction}
    (hfits : machine.pc.toNat + instruction.operandCount < 256) :
    machine.behind (machine.operation instruction) = machine.pc.toNat + instruction.width := by
  apply addressAt_of_lt
  show machine.pc.toNat + (1 + instruction.operandCount) < UInt64.size
  exact Nat.lt_of_le_of_lt (by omega) (by decide : 256 < UInt64.size)

/-- The machine after an instruction, but for what a step adds to it. -/
def changed (machine : Machine) (instruction : Instruction) : Machine :=
  { machine with
    memory := machine.memoryAfter instruction
    registers := machine.registersAfter instruction
    flags := machine.flagsAfter instruction
    running := machine.runningAfter instruction }

/-- Where the machine goes on: where the tables say, but that a machine that does
    not run stays on a simple instruction. -/
def landing (machine : Machine) (instruction : Instruction) : Nat :=
  if machine.running = false ∧ instruction.category = .simple then machine.pc.toNat
  else machine.pcAfter instruction

/-! ## Simple instructions -/

/-- What a simple instruction does apart from where the machine goes on. -/
theorem transfer_operation (machine : Machine) {instruction : Instruction}
    (h : instruction.category = .simple) :
    machine.transfer (machine.operation instruction) =
      verdict (machine.refusal? instruction)
        (machine.changed instruction, machine.outputAfter instruction) := by
  unfold refusal?
  -- NOP and HLT have no operands and no checks.
  rcases Nat.eq_zero_or_pos instruction.operandCount with hnone | hcount
  · cases instruction
    case nop | hlt => rfl
    case ldi | ld | st | prn | push | pop => cases hnone
    all_goals cases h
  have ha := machine.a_operation hcount
  have hb := machine.b_operation hcount
  -- Both sides become the same sequence of checks with the same result behind them.
  cases instruction
  case nop | hlt => rfl
  case ldi =>
    simp only [transfer, instruction_operation, ha, hb, Registers.write_eq, refusal_bind]
    simp only [checks, Check.register, Check.verdict_check, Check.verdict_nil]
    rfl
  case ld =>
    simp only [transfer, instruction_operation, ha, hb, Registers.read_eq, Registers.write_eq,
      refusal_bind]
    simp only [checks, Check.register, Check.verdict_check, Check.verdict_nil]
    rfl
  case st =>
    simp only [transfer, instruction_operation, ha, hb, Registers.read_eq, refusal_bind]
    simp only [checks, Check.register, Check.verdict_check, Check.verdict_nil]
    rfl
  case prn =>
    simp only [transfer, instruction_operation, ha, Registers.read_eq, refusal_bind]
    simp only [checks, Check.register, Check.verdict_check, Check.verdict_nil]
    rfl
  case push =>
    simp only [transfer, instruction_operation, ha, Registers.read_eq, Stack.push_eq,
      refusal_bind]
    simp only [checks, Check.register, Check.room, Check.verdict_check, Check.verdict_nil]
    rfl
  case pop =>
    simp only [transfer, instruction_operation, ha, Registers.read_eq, Registers.write_eq,
      Stack.pop_eq, refusal_bind]
    simp only [checks, Check.register, Check.pending, Check.verdict_check, Check.verdict_nil]
    -- The register is checked before and after the pop, with the same outcome.
    by_cases hbad : 8 ≤ machine.operandA
    · rw [if_pos hbad, if_pos hbad]
    · rw [if_neg hbad, if_neg hbad, if_neg hbad]
      rfl
  all_goals cases h

/-- A simple instruction leads behind itself as long as the machine runs. -/
theorem landing_of_simple (machine : Machine) {instruction : Instruction}
    (h : instruction.category = .simple) :
    machine.landing instruction =
      if machine.runningAfter instruction then machine.pc.toNat + instruction.width
      else machine.pc.toNat := by
  unfold landing
  simp only [h, and_true]
  cases hrunning : machine.running with
  | false =>
    -- No instruction starts a stopped machine again.
    have hafter : machine.runningAfter instruction = false := by
      cases instruction <;> first | rfl | exact hrunning
    rw [hafter]
    rfl
  | true =>
    simp only [Bool.true_eq_false, if_false]
    -- HLT is the only one that stops a running machine, and it stays where it is.
    cases instruction
    case hlt => rfl
    all_goals cases h
    all_goals simp [pcAfter, jumps, runningAfter, hrunning]

theorem simple_operation (machine : Machine) {instruction : Instruction}
    (h : instruction.category = .simple)
    (hfits : machine.pc.toNat + instruction.operandCount < 256) :
    machine.simple (machine.operation instruction) =
      verdict (machine.refusal? instruction)
        ⟨machine.changed instruction, machine.landing instruction,
          machine.outputAfter instruction⟩ := by
  unfold simple
  rw [machine.transfer_operation h, behind_operation hfits, machine.landing_of_simple h]
  cases machine.refusal? instruction with
  | some fault => rfl
  | none => rfl

/-! ## Arithmetic instructions -/

section Arithmetic

variable (machine : Machine) {instruction : Instruction} {op : AluOp}

/-- The verdict of the arithmetic unit: both registers count before the divisor. -/
def aluVerdict {α : Type} (instruction : Instruction) (op : AluOp) (value : α) :
    Except Fault α :=
  if 8 ≤ machine.operandA then .error (.registerIndex machine.operandA)
  else if 8 ≤ machine.operandB instruction then
    .error (.registerIndex (machine.operandB instruction))
  else if op.divides && machine.registerB instruction == 0 then .error .divideByZero
  else .ok value

/-- The checks of an arithmetic instruction are those of the arithmetic unit. The
    instructions differ in how many of them they need. -/
theorem verdict_refusal_of_aluOp {α : Type} (h : instruction.aluOp? = some op) (value : α) :
    verdict (machine.refusal? instruction) value =
      machine.aluVerdict instruction op value := by
  -- Two registers and no divisor.
  have hbinary (hchecks : machine.checks instruction =
        [.register machine.operandA, .register (machine.operandB instruction)])
      (hdivides : op.divides = false) :
      verdict (machine.refusal? instruction) value =
        machine.aluVerdict instruction op value := by
    unfold refusal? aluVerdict
    rw [hchecks, hdivides]
    simp only [Check.register, Check.verdict_check, Check.verdict_nil]
    rfl
  -- Two registers, the second of them a divisor.
  have hdivision (hchecks : machine.checks instruction =
        [.register machine.operandA, .register (machine.operandB instruction),
          .divisor (machine.registerB instruction)])
      (hdivides : op.divides = true) :
      verdict (machine.refusal? instruction) value =
        machine.aluVerdict instruction op value := by
    unfold refusal? aluVerdict
    rw [hchecks, hdivides]
    simp only [Check.register, Check.divisor, Check.verdict_check, Check.verdict_nil,
      Bool.true_and, beq_iff_eq]
  -- One register, which the unit is given twice.
  have hunary (hchecks : machine.checks instruction = [.register machine.operandA])
      (hsame : machine.operandB instruction = machine.operandA)
      (hdivides : op.divides = false) :
      verdict (machine.refusal? instruction) value =
        machine.aluVerdict instruction op value := by
    unfold refusal? aluVerdict
    rw [hchecks, hdivides, hsame]
    simp only [Check.register, Check.verdict_check, Check.verdict_nil]
    by_cases ha : 8 ≤ machine.operandA
    · rw [if_pos ha, if_pos ha]
    · rw [if_neg ha, if_neg ha, if_neg ha]
      rfl
  cases instruction <;> cases h
  case add | sub | mul | cmp | and | or | xor | shl | shr => exact hbinary rfl rfl
  case div | mod => exact hdivision rfl rfl
  case inc | dec | not => exact hunary rfl rfl rfl

/-- An arithmetic instruction changes nothing but registers and flags. -/
theorem changed_of_aluOp (h : instruction.aluOp? = some op) :
    machine.changed instruction =
      { machine with
        registers := (machine.aluAfter instruction).1
        flags := (machine.aluAfter instruction).2 } := by
  cases instruction <;> cases h <;> rfl

theorem landing_of_aluOp (h : instruction.aluOp? = some op) :
    machine.landing instruction = machine.pc.toNat + instruction.width := by
  have hcategory : instruction.category ≠ .simple := by
    cases instruction <;> cases h <;> decide
  unfold landing
  rw [if_neg (fun hstays => hcategory hstays.2)]
  cases instruction <;> cases h <;> rfl

theorem outputAfter_of_aluOp (h : instruction.aluOp? = some op) :
    machine.outputAfter instruction = "" := by
  cases instruction <;> cases h <;> rfl

/-- The arithmetic unit gives what the tables have, unless a check fails. -/
theorem apply_operands (h : instruction.aluOp? = some op) :
    op.apply machine.operandA (machine.operandB instruction) machine.registers machine.flags =
      verdict (machine.refusal? instruction) (machine.aluAfter instruction) := by
  have happly := op.apply_eq machine.operandA (machine.operandB instruction) machine.registers
    machine.flags
  have hverdict := happly.trans (machine.verdict_refusal_of_aluOp h _).symm
  -- The tables take the result of the unit, which there is only if no check fails.
  unfold aluAfter
  rw [h]
  cases hrefusal : machine.refusal? instruction with
  | some fault =>
    rw [hrefusal] at hverdict
    exact hverdict
  | none =>
    rw [hrefusal] at hverdict
    simp only [hverdict]
    rfl

theorem arithmetic_operation (h : instruction.aluOp? = some op)
    (hfits : machine.pc.toNat + instruction.operandCount < 256) :
    machine.arithmetic (machine.operation instruction) =
      verdict (machine.refusal? instruction)
        ⟨machine.changed instruction, machine.landing instruction,
          machine.outputAfter instruction⟩ := by
  have hcount : 0 < instruction.operandCount := by
    cases instruction <;> cases h <;> decide
  have hop : AluOp.ofInstruction instruction = .ok op := by
    unfold AluOp.ofInstruction
    rw [h]
  unfold arithmetic
  rw [instruction_operation, hop, ok_bind, machine.a_operation hcount,
    machine.b_operation hcount, behind_operation hfits, machine.apply_operands h,
    machine.changed_of_aluOp h, machine.landing_of_aluOp h, machine.outputAfter_of_aluOp h]
  cases machine.refusal? instruction with
  | some fault => rfl
  | none => rfl

end Arithmetic

/-! ## Transfers of control -/

/-- Only a simple instruction keeps a stopped machine where it is. -/
theorem landing_of_not_simple (machine : Machine) {instruction : Instruction}
    (h : instruction.category ≠ .simple) :
    machine.landing instruction = machine.pcAfter instruction := by
  unfold landing
  rw [if_neg (fun hstays => h hstays.2)]

/-- A jump only reads its register and the flags. -/
theorem control_operation_of_condition (machine : Machine) {instruction : Instruction}
    {condition : Condition} (h : instruction.condition? = some condition)
    (hfits : machine.pc.toNat + instruction.operandCount < 256) :
    machine.control (machine.operation instruction) =
      verdict (machine.refusal? instruction)
        ⟨machine.changed instruction, machine.landing instruction,
          machine.outputAfter instruction⟩ := by
  -- What the seven jumps have in common.
  have hcount : 0 < instruction.operandCount := by
    cases instruction <;> cases h <;> decide
  have hcategory : instruction.category ≠ .simple := by
    cases instruction <;> cases h <;> decide
  have hchecks : machine.checks instruction = [.register machine.operandA] := by
    cases instruction <;> cases h <;> rfl
  have hchanged : machine.changed instruction = machine := by
    cases instruction <;> cases h <;> rfl
  have houtput : machine.outputAfter instruction = "" := by
    cases instruction <;> cases h <;> rfl
  have hpc : machine.pcAfter instruction =
      if jumps machine.flags.bits instruction then machine.registerA.toNat
      else machine.pc.toNat + instruction.width := by
    cases instruction <;> cases h <;> rfl
  -- They differ in their condition alone, so the code for them is one.
  have hcontrol : machine.control (machine.operation instruction) = (do
      let target ← machine.registers.read (machine.operation instruction).a
      return {
        machine
        next :=
          if machine.flags.satisfies condition then target.toNat
          else machine.behind (machine.operation instruction) }) := by
    cases instruction <;> cases h <;> rfl
  rw [hcontrol, machine.a_operation hcount, behind_operation hfits, Registers.read_eq, refusal_bind,
    machine.flags.satisfies_eq_jumps h]
  unfold refusal?
  rw [hchecks, hchanged, houtput, machine.landing_of_not_simple hcategory, hpc]
  simp only [Check.register, Check.verdict_check, Check.verdict_nil]
  rfl

theorem control_operation (machine : Machine) {instruction : Instruction}
    (h : instruction.category = .control)
    (hfits : machine.pc.toNat + instruction.operandCount < 256) :
    machine.control (machine.operation instruction) =
      verdict (machine.refusal? instruction)
        ⟨machine.changed instruction, machine.landing instruction,
          machine.outputAfter instruction⟩ := by
  cases instruction
  case call =>
    have hcount : 0 < Instruction.call.operandCount := by decide
    have hwidth : Instruction.call.width = 2 := by decide
    have hbelow : machine.pc.toNat < 255 := by
      have hone : Instruction.call.operandCount = 1 := by decide
      omega
    -- The operand is in memory, so only the very last call has nowhere to return to.
    have hreturn : returnAddress (machine.pc.toNat + 2) =
        if machine.pc.toNat = 254 then .error (.memoryAddress 256)
        else .ok (UInt8.ofNat (machine.pc.toNat + 2)) := by
      rw [returnAddress_eq]
      by_cases hlast : machine.pc.toNat = 254
      · rw [if_pos (by omega), if_pos hlast, hlast]
      · rw [if_neg (by omega), if_neg hlast]
    rw [machine.landing_of_not_simple (by decide)]
    unfold control refusal?
    simp only [instruction_operation, machine.a_operation hcount, behind_operation hfits, hwidth,
      Registers.read_eq, hreturn, Stack.push_eq, refusal_bind]
    simp only [checks, Check.register, Check.returnAddress, Check.room, Check.verdict_check,
      Check.verdict_nil]
    rfl
  case ret =>
    rw [machine.landing_of_not_simple (by decide)]
    unfold control refusal?
    simp only [instruction_operation, Stack.pop_eq, refusal_bind]
    simp only [checks, Check.pending, Check.verdict_check, Check.verdict_nil]
    rfl
  case jmp | jeq | jne | jgt | jlt | jge | jle =>
    exact machine.control_operation_of_condition rfl hfits
  all_goals cases h

/-! ## All instructions -/

/-- The effect of the operation at the program counter: the checks of its instruction,
    and then the changes that the tables have. -/
theorem effect_operation (machine : Machine) (instruction : Instruction)
    (hfits : machine.pc.toNat + instruction.operandCount < 256) :
    machine.effect (machine.operation instruction) =
      verdict (machine.refusal? instruction)
        ⟨machine.changed instruction, machine.landing instruction,
          machine.outputAfter instruction⟩ := by
  have hoperation : (machine.operation instruction).category = instruction.category := rfl
  unfold effect
  rw [hoperation]
  cases hcategory : instruction.category with
  | arithmetic =>
    obtain ⟨op, hop⟩ : ∃ op, instruction.aluOp? = some op := by
      cases instruction <;> first | exact ⟨_, rfl⟩ | cases hcategory
    exact machine.arithmetic_operation hop hfits
  | control => exact machine.control_operation hcategory hfits
  | simple => exact machine.simple_operation hcategory hfits

end Machine

end ByteMachine
