import ByteMachine.Proofs.InstructionSet
/-!
# Faults of an instruction

When a step fails and with which fault, written down as lists of checks. The
checks of an instruction stand in the order in which they count: the first one
that fails gives the fault.

## Main definitions

- `checks`: the checks of an instruction, on the machine before it.
- `fault?`: the fault of a step: of the fetch, of decoding, or of the instruction.
-/

namespace ByteMachine

/-- A check and the fault that it gives. -/
structure Check where
  fails : Bool
  fault : Fault
deriving DecidableEq, Repr

namespace Check

/-- The operand byte of a register has to name one. -/
def register (index : UInt8) : Check where
  fails := 8 ≤ index
  fault := .registerIndex index

/-- A divisor must not be zero. -/
def divisor (value : UInt8) : Check where
  fails := value = 0
  fault := .divideByZero

/-- A byte can be pushed only above the limit. -/
def room (machine : Machine) : Check where
  fails := machine.stackPointer ≤ machine.stackLimit
  fault := .stackOverflow machine.stackLimit

/-- A byte can be popped only below the top of the stack. -/
def pending (machine : Machine) : Check where
  fails := Registers.stackTop ≤ machine.stackPointer
  fault := .stackUnderflow

/-- The address that a call returns to has to be one of memory. -/
def returnAddress (machine : Machine) : Check where
  fails := machine.pc.toNat = 254
  fault := .memoryAddress 256

/-- The fault of the first check that fails. -/
def firstFault : List Check → Option Fault
  | [] => none
  | check :: rest => if check.fails then some check.fault else firstFault rest

end Check

/-- A value, unless there is a fault to take its place. -/
def verdict {α : Type} (fault : Option Fault) (value : α) : Except Fault α :=
  match fault with
  | some fault => .error fault
  | none => .ok value

namespace Machine

/-- The checks of an instruction that has been decoded. -/
def checks (machine : Machine) (instruction : Instruction) : List Check :=
  let a := machine.operandA
  let b := machine.operandB instruction
  match instruction with
  | .add | .sub | .mul | .cmp | .and | .or | .xor | .shl | .shr => [.register a, .register b]
  | .div | .mod => [.register a, .register b, .divisor (machine.registerB instruction)]
  | .inc | .dec | .not | .ldi | .prn => [.register a]
  -- A jump checks its register also if it is not taken.
  | .jmp | .jeq | .jne | .jgt | .jlt | .jge | .jle => [.register a]
  -- LD looks at its source first, ST at its destination.
  | .ld => [.register b, .register a]
  | .st => [.register a, .register b]
  | .push => [.register a, .room machine]
  | .pop => [.register a, .pending machine]
  -- The address to return to counts before the room for it.
  | .call => [.register a, .returnAddress machine, .room machine]
  | .ret => [.pending machine]
  | .nop | .hlt => []

/-- The fault of an instruction that has been decoded. -/
def refusal? (machine : Machine) (instruction : Instruction) : Option Fault :=
  Check.firstFault (machine.checks instruction)

/-- The faults that the checks of an instruction may give. -/
def refusals (machine : Machine) (instruction : Instruction) : List Fault :=
  [.registerIndex machine.operandA, .registerIndex (machine.operandB instruction),
    .divideByZero, .stackOverflow machine.stackLimit, .stackUnderflow, .memoryAddress 256]

/-- The fault of a step, but for what the sink may refuse. -/
def fault? (machine : Machine) : Option Fault :=
  -- Fetching, then the opcode, then the operands, and the instruction itself last.
  if 256 ≤ machine.pc.toNat then some (.memoryAddress machine.pc.toNat)
  else
    match Instruction.ofOpcode? (machine.ahead 0) with
    | none => some (.unknownOpcode (machine.ahead 0))
    | some instruction =>
      if 255 < machine.pc.toNat + instruction.operandCount then some (.memoryAddress 256)
      else machine.refusal? instruction

/-- The machine carries an instruction out: it is at the instruction, all operands are
    in memory, and no check fails. -/
structure Executes (machine : Machine) (instruction : Instruction) : Prop where
  found : machine.instruction? = some instruction
  fits : machine.pc.toNat + instruction.operandCount < 256
  passes : machine.refusal? instruction = none

/-! ## Faults and instructions carried out -/

theorem instruction?_eq_some_iff {machine : Machine} {instruction : Instruction} :
    machine.instruction? = some instruction ↔
      machine.pc.toNat < 256 ∧ instruction.opcode = machine.ahead 0 := by
  unfold instruction? Memory.capacity
  constructor
  · intro h
    split at h
    · next hlt => exact ⟨hlt, Instruction.ofOpcode?_eq_some_iff.mp h⟩
    · cases h
  · rintro ⟨hlt, hopcode⟩
    rw [if_pos hlt]
    exact Instruction.ofOpcode?_eq_some_iff.mpr hopcode

/-- For an instruction with its operands in memory only its own checks are left. -/
theorem fault?_of_fits {machine : Machine} {instruction : Instruction}
    (hfound : machine.instruction? = some instruction)
    (hfits : machine.pc.toNat + instruction.operandCount < 256) :
    machine.fault? = machine.refusal? instruction := by
  obtain ⟨hlt, hopcode⟩ := instruction?_eq_some_iff.mp hfound
  unfold fault?
  rw [if_neg (by omega), Instruction.ofOpcode?_eq_some_iff.mpr hopcode]
  exact if_neg (by omega)

/-- There is no fault exactly if some instruction is carried out. -/
theorem fault?_eq_none_iff {machine : Machine} :
    machine.fault? = none ↔ ∃ instruction, machine.Executes instruction := by
  constructor
  · intro h
    -- Without a fault the machine has come past every stage.
    unfold fault? at h
    split at h
    · cases h
    next hin =>
    split at h
    · cases h
    next instruction hknown =>
    split at h
    · cases h
    next hfits =>
    have hopcode := Instruction.ofOpcode?_eq_some_iff.mp hknown
    exact ⟨instruction, instruction?_eq_some_iff.mpr ⟨by omega, hopcode⟩, by omega, h⟩
  · rintro ⟨instruction, hexecutes⟩
    rw [fault?_of_fits hexecutes.found hexecutes.fits]
    exact hexecutes.passes

end Machine

/-! ## Checks one after the other -/

namespace Check

variable {α : Type} (rest : List Check) (value : α)

/-- A list of checks gives its verdict check by check. -/
theorem verdict_check (p : Prop) [Decidable p] (fault : Fault) :
    verdict (firstFault (⟨decide p, fault⟩ :: rest)) value =
      if p then .error fault else verdict (firstFault rest) value := by
  rw [firstFault]
  by_cases h : p
  · rw [if_pos (decide_eq_true h), if_pos h]
    rfl
  · rw [if_neg (fun hfails => h (of_decide_eq_true hfails)), if_neg h]

theorem verdict_nil : verdict (firstFault []) value = .ok value := rfl

/-- The fault of a list of checks is that of one of them. -/
theorem exists_mem_of_firstFault {checks : List Check} {fault : Fault}
    (h : firstFault checks = some fault) : ∃ check ∈ checks, check.fault = fault := by
  induction checks with
  | nil => cases h
  | cons check rest ih =>
    unfold firstFault at h
    split at h
    · exact ⟨check, List.mem_cons_self .., Option.some.inj h⟩
    · obtain ⟨other, hmem, hfault⟩ := ih h
      exact ⟨other, List.mem_cons_of_mem _ hmem, hfault⟩

theorem fails_of_firstFault_eq_none {checks : List Check} (h : firstFault checks = none)
    {check : Check} (hmem : check ∈ checks) : check.fails = false := by
  induction checks with
  | nil => cases hmem
  | cons first rest ih =>
    unfold firstFault at h
    split at h
    · cases h
    next hpasses =>
    obtain rfl | hrest := List.mem_cons.mp hmem
    · exact Bool.eq_false_iff.mpr hpasses
    · exact ih h hrest

end Check

/-- An instruction that is carried out has passed each of its checks. -/
theorem Machine.Executes.passes_check {machine : Machine} {instruction : Instruction}
    (h : machine.Executes instruction) {check : Check}
    (hmem : check ∈ machine.checks instruction) : check.fails = false :=
  Check.fails_of_firstFault_eq_none h.passes hmem

/-- The address behind a CALL that is carried out is one of memory. -/
theorem Machine.Executes.returnAddress_lt {machine : Machine} (h : machine.Executes .call) :
    machine.pc.toNat + 2 < 256 := by
  have hpasses : (Check.returnAddress machine).fails = false :=
    h.passes_check (by simp [Machine.checks])
  have hne : machine.pc.toNat ≠ 254 := of_decide_eq_false hpasses
  have hfits := h.fits
  have hone : Instruction.call.operandCount = 1 := by decide
  omega

/-! ## Which faults there are -/

namespace Machine

variable {machine : Machine} {fault : Fault}

theorem mem_refusals_of_refusal? {instruction : Instruction}
    (h : machine.refusal? instruction = some fault) : fault ∈ machine.refusals instruction := by
  obtain ⟨check, hmem, rfl⟩ := Check.exists_mem_of_firstFault h
  -- No instruction has more than three checks.
  cases instruction <;>
    simp only [checks, List.mem_cons, List.not_mem_nil, or_false] at hmem <;>
    rcases hmem with rfl | rfl | rfl <;>
    simp [refusals, Check.register, Check.divisor, Check.room, Check.pending,
      Check.returnAddress]

/-- A step faults beyond memory, at a byte that is no opcode, or by one of the refusals of
    its instruction; operands that run into the end of memory count as one of these. -/
theorem fault?_cases (h : machine.fault? = some fault) :
    (256 ≤ machine.pc.toNat ∧ fault = .memoryAddress machine.pc.toNat) ∨
    (machine.pc.toNat < 256 ∧ Instruction.ofOpcode? (machine.ahead 0) = none ∧
      fault = .unknownOpcode (machine.ahead 0)) ∨
    ∃ instruction, machine.instruction? = some instruction ∧
      fault ∈ machine.refusals instruction := by
  unfold fault? at h
  split at h
  · next hout =>
    cases h
    exact .inl ⟨hout, rfl⟩
  next hin =>
  split at h
  · next hunknown =>
    cases h
    exact .inr (.inl ⟨Nat.not_le.mp hin, hunknown, rfl⟩)
  next instruction hknown =>
  have hopcode := Instruction.ofOpcode?_eq_some_iff.mp hknown
  refine .inr (.inr ⟨instruction, instruction?_eq_some_iff.mpr ⟨Nat.not_le.mp hin, hopcode⟩, ?_⟩)
  split at h
  · cases h
    simp [refusals]
  · exact mem_refusals_of_refusal? h

theorem fault?_eq_unknownOpcode_iff {opcode : UInt8} :
    machine.fault? = some (.unknownOpcode opcode) ↔
      machine.pc.toNat < 256 ∧ machine.ahead 0 = opcode ∧ Instruction.ofOpcode? opcode = none := by
  constructor
  · intro h
    rcases fault?_cases h with ⟨-, hfault⟩ | ⟨hlt, hunknown, hfault⟩ | ⟨_, -, hmem⟩
    · cases hfault
    · cases hfault
      exact ⟨hlt, rfl, hunknown⟩
    · simp [refusals] at hmem
  · rintro ⟨hlt, rfl, hunknown⟩
    unfold fault?
    rw [if_neg (Nat.not_le.mpr hlt), hunknown]

/-- Decoding leads to the part of the machine that knows the instruction. -/
theorem fault?_ne_unsupported (instruction : Instruction) :
    machine.fault? ≠ some (.unsupported instruction) := by
  intro h
  rcases fault?_cases h with ⟨-, hfault⟩ | ⟨-, -, hfault⟩ | ⟨_, -, hmem⟩
  · cases hfault
  · cases hfault
  · simp [refusals] at hmem

end Machine

theorem verdict_eq_ok_iff {α : Type} {fault : Option Fault} {value result : α} :
    verdict fault value = .ok result ↔ fault = none ∧ value = result := by
  cases fault with
  | none => simp [verdict]
  | some fault => simp [verdict]

theorem verdict_eq_error_iff {α : Type} {fault : Option Fault} {value : α} {reason : Fault} :
    verdict fault value = .error reason ↔ fault = some reason := by
  cases fault with
  | none => simp [verdict]
  | some fault => simp [verdict]

end ByteMachine
