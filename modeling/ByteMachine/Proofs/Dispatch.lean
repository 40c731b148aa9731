import ByteMachine.Proofs.Effects
import ByteMachine.Proofs.Encoding
import ByteMachine.Proofs.Limits
/-!
# Operations that are not supported

Three parts of the machine carry operations out, and each of them looks at the instruction by
itself and refuses those that it does not know. The category of an operation says which part it
goes to. An instruction has a category as well, which its opcode byte announces, and the parts
know exactly the instructions of their own category: an operation is not supported if its
category is not that of its instruction, and for no other reason. It is refused before a
register, the stack or the sink is looked at.

Decoding gives an operation the category of its instruction, so no step ends in this way.

## Main definitions

- `Supported`: a computation that does not end with an operation that is not supported.
- `Serves`: a part of the machine knows the instructions of a category and no others.

## Main statements

- `Machine.serves_part`: each part serves its category.
- `Machine.supported_step`, `Machine.supported_runFor`: no step and no run ends with an
  operation that is not supported.
- `Machine.unsupported_iff_mismatched`: which operations are not supported.
-/

namespace ByteMachine

/-! ## Computations without unsupported operations -/

/-- A computation does not end with an operation that is not supported. -/
def Supported {α : Type} (outcome : Except Fault α) : Prop :=
  ∀ instruction, outcome ≠ .error (.unsupported instruction)

namespace Supported

variable {α β : Type} {fault : Fault}

theorem ok (value : α) : Supported (.ok value) := by
  intro instruction h
  cases h

theorem error (h : ∀ named, fault ≠ .unsupported named) :
    Supported (.error fault : Except Fault α) := by
  intro named heq
  exact h named (Except.error.inj heq)

theorem fault_ne {outcome : Except Fault α} (h : Supported outcome)
    (herror : outcome = .error fault) (named : Instruction) : fault ≠ .unsupported named := by
  rintro rfl
  exact h named herror

theorem bind {first : Except Fault α} {next : α → Except Fault β} (hfirst : Supported first)
    (hnext : ∀ value, Supported (next value)) : Supported (first >>= next) := by
  cases first with
  | error fault => exact error (hfirst.fault_ne rfl)
  | ok value => exact hnext value

theorem check (p : Prop) [Decidable p] (hfault : ∀ named, fault ≠ .unsupported named)
    (value : α) : Supported (if p then .error fault else .ok value) := by
  split
  · exact error hfault
  · exact ok value

/-! Registers, stack, return addresses and arithmetic have faults of their own. -/

theorem read (registers : Registers) (index : UInt8) : Supported (registers.read index) := by
  rw [Registers.read_eq]
  refine check _ ?_ _
  nofun

theorem write (registers : Registers) (index value : UInt8) :
    Supported (registers.write index value) := by
  rw [Registers.write_eq]
  refine check _ ?_ _
  nofun

theorem push (memory : Memory) (registers : Registers) (limit value : UInt8) :
    Supported (Stack.push memory registers limit value) := by
  rw [Stack.push_eq]
  refine check _ ?_ _
  nofun

theorem pop (memory : Memory) (registers : Registers) : Supported (Stack.pop memory registers) := by
  rw [Stack.pop_eq]
  refine check _ ?_ _
  nofun

theorem returnAddress (address : Nat) : Supported (Machine.returnAddress address) := by
  rw [Machine.returnAddress_eq]
  refine check _ ?_ _
  nofun

theorem apply (op : AluOp) (a b : UInt8) (registers : Registers) (flags : Flags) :
    Supported (op.apply a b registers flags) := by
  unfold AluOp.apply
  refine (read registers a).bind fun x => (read registers b).bind fun y => ?_
  dsimp only
  split
  · exact error nofun
  · exact (write registers a _).bind fun after => ok _

end Supported

/-! ## Parts of the machine -/

/-- The category that an opcode byte announces in its bits 5 and 4. -/
theorem Instruction.category_eq (instruction : Instruction) :
    instruction.category =
      if instruction.opcode.toNat.testBit 5 then .arithmetic
      else if instruction.opcode.toNat.testBit 4 then .control
      else .simple := by
  cases instruction <;> decide

/-- A part of the machine serves a category: it refuses the instructions of all other
    categories as not supported, and those of its own for other reasons only. -/
structure Serves {α : Type} (part : Operation → Except Fault α) (category : Category) : Prop where
  own : ∀ operation, operation.instruction.category = category → Supported (part operation)
  others : ∀ operation, operation.instruction.category ≠ category →
    part operation = .error (.unsupported operation.instruction)

theorem Serves.eq_unsupported_iff {α : Type} {part : Operation → Except Fault α}
    {category : Category} (h : Serves part category) {operation : Operation}
    {named : Instruction} :
    part operation = .error (.unsupported named) ↔
      operation.instruction.category ≠ category ∧ named = operation.instruction := by
  by_cases hcategory : operation.instruction.category = category
  · constructor
    · intro hpart
      exact absurd hpart (h.own operation hcategory named)
    · rintro ⟨hother, -⟩
      exact absurd hcategory hother
  · rw [h.others operation hcategory]
    constructor
    · intro hpart
      cases hpart
      exact ⟨hcategory, rfl⟩
    · rintro ⟨-, rfl⟩
      rfl

namespace Machine

variable {machine : Machine} {operation : Operation} {sink : Sink}

theorem serves_arithmetic (machine : Machine) : Serves machine.arithmetic .arithmetic where
  own operation h := by
    -- Whether the instruction is known is settled before the unit looks at the registers.
    have hop : Supported (AluOp.ofInstruction operation.instruction) := by
      cases hinstruction : operation.instruction <;> rw [hinstruction] at h
      case add | sub | mul | div | mod | inc | dec | cmp | and | not | or | xor | shl | shr =>
        exact .ok _
      all_goals cases h
    exact hop.bind fun op => (Supported.apply op _ _ _ _).bind fun ⟨_, _⟩ => .ok _
  others operation h := by
    unfold arithmetic
    cases hinstruction : operation.instruction <;> rw [hinstruction] at h
    case add | sub | mul | div | mod | inc | dec | cmp | and | not | or | xor | shl | shr =>
      exact absurd rfl h
    all_goals rfl

theorem serves_control (machine : Machine) : Serves machine.control .control where
  own operation h := by
    unfold control
    -- Of the instructions that the category leaves, each makes its checks and then succeeds.
    cases hinstruction : operation.instruction <;> rw [hinstruction] at h
    case call =>
      exact (Supported.read _ _).bind fun target => (Supported.returnAddress _).bind fun back =>
        (Supported.push _ _ _ _).bind fun ⟨_, _⟩ => .ok _
    case ret => exact (Supported.pop _ _).bind fun ⟨_, _⟩ => .ok _
    case jmp | jeq | jne | jgt | jlt | jle | jge =>
      exact (Supported.read _ _).bind fun target => .ok _
    all_goals cases h
  others operation h := by
    unfold control
    cases hinstruction : operation.instruction <;> rw [hinstruction] at h
    case call | ret | jmp | jeq | jne | jgt | jlt | jle | jge => exact absurd rfl h
    all_goals rfl

theorem serves_transfer (machine : Machine) : Serves machine.transfer .simple where
  own operation h := by
    unfold transfer
    cases hinstruction : operation.instruction <;> rw [hinstruction] at h
    case nop | hlt => exact .ok _
    case ldi => exact (Supported.write _ _ _).bind fun registers => .ok _
    case ld =>
      exact (Supported.read _ _).bind fun address =>
        (Supported.write _ _ _).bind fun registers => .ok _
    case st =>
      exact (Supported.read _ _).bind fun address =>
        (Supported.read _ _).bind fun value => .ok _
    case prn => exact (Supported.read _ _).bind fun value => .ok _
    case push =>
      exact (Supported.read _ _).bind fun value =>
        (Supported.push _ _ _ _).bind fun ⟨_, _⟩ => .ok _
    case pop =>
      exact (Supported.read _ _).bind fun _ => (Supported.pop _ _).bind fun ⟨_, _⟩ =>
        (Supported.write _ _ _).bind fun registers => .ok _
    all_goals cases h
  others operation h := by
    unfold transfer
    cases hinstruction : operation.instruction <;> rw [hinstruction] at h
    case nop | hlt | ldi | ld | st | push | pop | prn => exact absurd rfl h
    all_goals rfl

theorem serves_simple (machine : Machine) : Serves machine.simple .simple where
  own operation h := ((serves_transfer machine).own operation h).bind fun ⟨_, _⟩ => .ok _
  others operation h := by
    unfold simple
    rw [(serves_transfer machine).others operation h]
    rfl

/-- The part of the machine for a category. -/
def part (machine : Machine) : Category → Operation → Except Fault Effect
  | .arithmetic => machine.arithmetic
  | .control => machine.control
  | .simple => machine.simple

theorem effect_eq_part (machine : Machine) (operation : Operation) :
    machine.effect operation = machine.part operation.category operation := by
  unfold effect
  cases operation.category <;> rfl

/-- **Each part knows the instructions of its category.** -/
theorem serves_part (machine : Machine) (category : Category) :
    Serves (machine.part category) category := by
  cases category with
  | arithmetic => exact serves_arithmetic machine
  | control => exact serves_control machine
  | simple => exact serves_simple machine

/-! ## Operations -/

/-- What is printed does not make an operation unsupported. -/
theorem execute_eq_unsupported_iff {named : Instruction} :
    (machine.execute operation sink).result = .error (.unsupported named) ↔
      machine.effect operation = .error (.unsupported named) := by
  unfold execute
  cases machine.effect operation with
  | error fault =>
    dsimp only
    rw [Except.error.injEq, Except.error.injEq]
  | ok effect =>
    dsimp only
    split <;> simp

theorem execute_of_effect_error {fault : Fault} (h : machine.effect operation = .error fault) :
    machine.execute operation sink = ⟨machine, sink, .error fault⟩ := by
  unfold execute
  rw [h]

/-- An operation with the category of its instruction is supported. -/
theorem supported_execute (machine : Machine) (sink : Sink)
    (h : operation.category = operation.instruction.category) :
    Supported (machine.execute operation sink).result := by
  intro named hresult
  rw [execute_eq_unsupported_iff, effect_eq_part, (serves_part machine _).eq_unsupported_iff]
    at hresult
  exact hresult.1 h.symm

/-! ## Steps and runs -/

theorem supported_decode (memory : Memory) (address : Nat) :
    Supported (Operation.decode memory address) := by
  intro named hdecode
  rcases Operation.decode_eq_error_iff.mp hdecode with
    ⟨-, hfault⟩ | ⟨_, -, -, hfault⟩ | ⟨_, -, -, hfault⟩
  all_goals cases hfault

/-- Decoding gives an operation the category of its instruction. -/
theorem category_of_decode {memory : Memory} {address : Nat}
    (h : Operation.decode memory address = .ok operation) :
    operation.category = operation.instruction.category := by
  obtain ⟨instruction, -, -, rfl⟩ := Operation.decode_eq_ok_iff.mp h
  rfl

theorem supported_step (machine : Machine) (sink : Sink) :
    Supported (machine.step sink).result := by
  unfold step
  rcases Nat.lt_or_ge machine.pc.toNat 256 with hlt | hge
  · rw [machine.fetch_of_lt hlt]
    dsimp only
    cases hdecode : Machine.decode { machine with ir := machine.ahead 0 } with
    | error fault =>
      have hsupported := supported_decode machine.memory machine.pc.toNat
      exact Supported.error (hsupported.fault_ne hdecode)
    | ok operation =>
      have hsupported := supported_execute { machine with ir := machine.ahead 0 } sink
        (category_of_decode hdecode)
      dsimp only
      split
      · exact .ok _
      · next hexecute =>
        rw [hexecute] at hsupported
        exact Supported.error (hsupported.fault_ne rfl)
  · -- There is no cell to fetch from.
    unfold fetch
    rw [Memory.read_of_ge _ hge]
    exact Supported.error nofun

/-- Stopping the machine may put a fault of the sink in place of the one it stops on, and no
    other. -/
theorem halt_stop_ne_unsupported {fault : Fault} (hfault : ∀ named, fault ≠ .unsupported named)
    (named : Instruction) :
    (machine.stop sink fault).halt ≠ some (.fault (.unsupported named)) := by
  intro h
  cases fault
  case unknownOpcode opcode =>
    unfold stop at h
    dsimp only at h
    split at h <;> cases h
  case unsupported other => exact hfault other rfl
  all_goals cases h

/-- **No run ends with an operation that is not supported.** -/
theorem supported_runFor (limit : Nat) (machine : Machine) (sink : Sink) (named : Instruction) :
    (machine.runFor limit sink).halt ≠ some (.fault (.unsupported named)) := by
  -- The induction is on the limit: the first step does not end the run in this way, and what
  -- comes behind it is a run with a smaller limit.
  induction limit generalizing machine sink with
  | zero =>
    unfold runFor
    split <;> simp
  | succ limit ih =>
    cases hrunning : machine.running with
    | false => simp [runFor_of_not_running hrunning]
    | true =>
      have hsupported := supported_step machine sink
      rcases hstep : machine.step sink with ⟨next, out, fault | ⟨⟩⟩
      · rw [hstep] at hsupported
        rw [runFor_succ_of_error hrunning hstep]
        exact halt_stop_ne_unsupported (hsupported.fault_ne rfl) named
      · rw [runFor_succ_of_ok hrunning hstep]
        exact ih next out

/-! ## Which operations are not supported -/

/-- **Unsupported operations are the mismatched ones.** Whatever the machine, the sink and the
    operands, an operation is not supported exactly if its category is another one than the bits
    5 and 4 of its instruction's opcode announce. The fault names the instruction, and machine
    and sink are left as they are. No step ends with such a fault and no run does, be it with
    or without a limit. -/
theorem unsupported_iff_mismatched (machine : Machine) (sink : Sink) :
    (∀ operation : Operation,
      let announced : Category :=
        if operation.instruction.opcode.toNat.testBit 5 then .arithmetic
        else if operation.instruction.opcode.toNat.testBit 4 then .control
        else .simple
      (∀ named, (machine.execute operation sink).result = .error (.unsupported named) ↔
        operation.category ≠ announced ∧ named = operation.instruction) ∧
      (operation.category ≠ announced →
        machine.execute operation sink =
          ⟨machine, sink, .error (.unsupported operation.instruction)⟩)) ∧
    (∀ named, (machine.step sink).result ≠ .error (.unsupported named)) ∧
    (∀ limit named, (machine.runFor limit sink).halt ≠ some (.fault (.unsupported named))) ∧
    ∀ ended ∈ machine.run sink, ∀ named, ended.halt ≠ some (.fault (.unsupported named)) := by
  refine ⟨?_, supported_step machine sink, fun limit => supported_runFor limit machine sink, ?_⟩
  · intro operation announced
    have hannounced : operation.instruction.category = announced :=
      operation.instruction.category_eq
    have hserves := serves_part machine operation.category
    constructor
    · intro named
      rw [execute_eq_unsupported_iff, effect_eq_part, hserves.eq_unsupported_iff, hannounced,
        ne_comm]
    · intro hmismatch
      apply execute_of_effect_error
      rw [effect_eq_part]
      apply hserves.others
      rw [hannounced]
      exact hmismatch.symm
  · intro ended hended
    obtain ⟨limit, _, rfl, -⟩ := mem_run_iff.mp hended
    exact supported_runFor limit machine sink

/-- A quotient that claims to be a simple operation is not supported, although its registers do
    not exist. Decoded from the same bytes, it ends a run because of the first of them. -/
theorem unsupported_iff_mismatched_quotient :
    let machine := ofProgram ⟨[0xA3, 9, 8], by decide⟩
    let operation : Operation :=
      { instruction := .div, category := .simple, operandCount := 2, raw := 0xA3,
        first := 9, second := 8 }
    (operation.category ≠ .arithmetic ∧
      machine.execute operation .unlimited =
        ⟨machine, .unlimited, .error (.unsupported .div)⟩) ∧
    ∃ ended ∈ machine.run .unlimited,
      ended.halt = some (.fault (.registerIndex 9)) ∧
      ∀ named, ended.halt ≠ some (.fault (.unsupported named)) := by
  intro machine operation
  obtain ⟨hoperations, -, -, hruns⟩ := unsupported_iff_mismatched machine .unlimited
  -- Put together by hand, the operation is refused for its category alone.
  obtain ⟨-, hexecute⟩ := hoperations operation
  have hhalt : (machine.runFor 1 .unlimited).halt = some (.fault (.registerIndex 9)) := by
    decide +kernel
  have hended : machine.runFor 1 .unlimited ∈ machine.run .unlimited :=
    mem_run_iff.mpr ⟨1, _, rfl, hhalt⟩
  exact ⟨⟨by decide, hexecute (by decide)⟩, _, hended, hhalt, hruns _ hended⟩

end Machine

end ByteMachine
