import ByteMachine.Machine.Run
/-!
# Addresses on the way

The machine works out addresses of memory and sums with its program counter while it
fetches, decodes and carries out an operation, and once more for a trace line. Most of them
leave no mark in the outcome. Here the same computations note every such number at the
moment at which it is worked out, also when a check that follows refuses it. Without its
notes, each of them is the computation of the machine.

## Main definitions

- `Noted`: a value together with the addresses that were worked out on the way to it.
- `Noted.step`, `Noted.runFor`: steps and runs that note their addresses.

## Main statements

- `Noted.value_step`, `Noted.value_runFor`: noting addresses changes nothing else.
-/

namespace ByteMachine

/-- A value together with the addresses that were worked out on the way to it, in order. -/
structure Noted (α : Type) where
  value : α
  addresses : List Nat := []

namespace Noted

instance : Monad Noted where
  pure value := { value }
  bind first next :=
    let second := next first.value
    ⟨second.value, first.addresses ++ second.addresses⟩

/-- Works out an address, whatever comes of it. -/
def address (number : Nat) : Noted Nat :=
  ⟨number, [number]⟩

/-- Works out the address a number of cells behind the program counter. What is noted is the sum of
    the numbers, so that one that does not fit in 64 bits can be seen. -/
def addressAt (machine : Machine) (offset : Nat) : Noted Nat :=
  ⟨machine.addressAt offset, [machine.pc.toNat + offset]⟩

/-! ## Computations that may fault -/

/-- An outcome in which no address is involved. -/
def check {α : Type} (outcome : Except Fault α) : ExceptT Fault Noted α :=
  ExceptT.mk (pure outcome)

def note (number : Nat) : ExceptT Fault Noted Nat :=
  ExceptT.lift (address number)

def read (memory : Memory) (number : Nat) : ExceptT Fault Noted UInt8 := do
  let number ← note number
  check (memory.read number)

def write (memory : Memory) (number : Nat) (value : UInt8) : ExceptT Fault Noted Memory := do
  let number ← note number
  check (memory.write number value)

/-! ## Operations -/

def fetch (machine : Machine) : ExceptT Fault Noted UInt8 :=
  read machine.memory machine.pc.toNat

/-- The operand byte with the given index, zero if the instruction has no such operand. -/
def operand (memory : Memory) (start count index : Nat) : ExceptT Fault Noted UInt8 :=
  if index < count then read memory (start + (index + 1)) else pure 0

def decode (memory : Memory) (start : Nat) : ExceptT Fault Noted Operation := do
  let raw ← read memory start
  match Instruction.ofOpcode? raw with
  | none => check (.error (.unknownOpcode raw))
  | some instruction =>
    let first ← operand memory start instruction.operandCount 0
    let second ← operand memory start instruction.operandCount 1
    return { instruction, category := instruction.category,
             operandCount := instruction.operandCount, raw, first, second }

def push (memory : Memory) (registers : Registers) (limit value : UInt8) :
    ExceptT Fault Noted (Memory × Registers) :=
  let pointer := registers.stackPointer
  if limit < pointer then do
    let memory ← write memory (pointer - 1).toNat value
    return (memory, registers.setStackPointer (pointer - 1))
  else check (.error (.stackOverflow limit))

def pop (memory : Memory) (registers : Registers) : ExceptT Fault Noted (UInt8 × Registers) :=
  let pointer := registers.stackPointer
  if pointer < Registers.stackTop then do
    let value ← read memory pointer.toNat
    return (value, registers.setStackPointer (pointer + 1))
  else check (.error .stackUnderflow)

/-- A transfer of control; `behind` is the address behind the operation. -/
def control (machine : Machine) (operation : Operation) (behind : Nat) :
    ExceptT Fault Noted Effect :=
  match operation.instruction with
  | .call => do
    let target ← check (machine.registers.read operation.a)
    let back ← check (Machine.returnAddress behind)
    let (memory, registers) ← push machine.memory machine.registers machine.stackLimit back
    return { machine := { machine with memory, registers }, next := target.toNat }
  | .ret => do
    let (back, registers) ← pop machine.memory machine.registers
    return { machine := { machine with registers }, next := back.toNat }
  -- A jump leaves memory alone.
  | _ => check (machine.control operation)

def transfer (machine : Machine) (operation : Operation) :
    ExceptT Fault Noted (Machine × String) :=
  match operation.instruction with
  | .ld => do
    let source ← check (machine.registers.read operation.b)
    let value ← read machine.memory source.toNat
    let registers ← check (machine.registers.write operation.a value)
    return ({ machine with registers }, "")
  | .st => do
    let target ← check (machine.registers.read operation.a)
    let value ← check (machine.registers.read operation.b)
    let memory ← write machine.memory target.toNat value
    return ({ machine with memory }, "")
  | .push => do
    let value ← check (machine.registers.read operation.a)
    let (memory, registers) ← push machine.memory machine.registers machine.stackLimit value
    return ({ machine with memory, registers }, "")
  | .pop => do
    let _ ← check (machine.registers.read operation.a)
    let (value, registers) ← pop machine.memory machine.registers
    let registers ← check (registers.write operation.a value)
    return ({ machine with registers }, "")
  | _ => check (machine.transfer operation)

def simple (machine : Machine) (operation : Operation) (behind : Nat) :
    ExceptT Fault Noted Effect := do
  let (after, output) ← transfer machine operation
  return {
    machine := after
    next := if after.running then behind else machine.pc.toNat
    output }

/-- The effect of an operation. The address behind it is worked out in any case, first of
    all. -/
def effect (machine : Machine) (operation : Operation) : ExceptT Fault Noted Effect := do
  let behind ← ExceptT.lift (addressAt machine operation.width)
  match operation.category with
  | .arithmetic => check (machine.arithmetic operation)
  | .control => control machine operation behind
  | .simple => simple machine operation behind

/-! ## Steps and runs -/

def execute (machine : Machine) (operation : Operation) (sink : Sink) :
    Noted (Reply Nat) := do
  match ← (effect machine operation).run with
  | .error fault => return ⟨machine, sink, .error fault⟩
  | .ok effect =>
    -- Where to go on is a number of any size until it is stored.
    let next ← address effect.next
    if sink.admits effect.output then
      return ⟨effect.machine, sink.offer effect.output, .ok next⟩
    else
      return ⟨machine, sink.offer effect.output, .error (.output sink.refusal.reason)⟩

def step (machine : Machine) (sink : Sink) : Noted (Reply Unit) := do
  match ← (fetch machine).run with
  | .error fault => return ⟨machine, sink, .error fault⟩
  | .ok opcode =>
    let fetched := { machine with ir := opcode }
    match ← (decode fetched.memory fetched.pc.toNat).run with
    | .error fault => return ⟨fetched, sink, .error fault⟩
    | .ok operation =>
      match ← execute fetched operation sink with
      | ⟨after, sink, .ok next⟩ => return ⟨after.advance next, sink, .ok ()⟩
      | ⟨after, sink, .error fault⟩ => return ⟨after, sink, .error fault⟩

/-- A cell of the trace line, by its distance from the program counter. -/
def traceCell (machine : Machine) (offset : Nat) : Noted (Option UInt8) := do
  let number ← addressAt machine offset
  return (machine.memory.read number).toOption

def trace (machine : Machine) : Noted Trace := do
  let first ← traceCell machine 0
  let second ← traceCell machine 1
  let third ← traceCell machine 2
  return machine.traceWith first second third

def stop (machine : Machine) (sink : Sink) (fault : Fault) : Noted Run :=
  let stopped := { machine with running := false }
  match fault with
  | .unknownOpcode opcode => do
    let trace ← trace machine
    let line := trace.text ++ "\n"
    let halt :=
      if sink.admits line then .unknownOpcode opcode machine.pc.toNat
      else .fault (.output sink.refusal.reason)
    return ⟨stopped, sink.offer line, some halt⟩
  | fault => return ⟨stopped, sink, some (.fault fault)⟩

def runFor : Nat → Machine → Sink → Noted Run
  | 0, machine, sink =>
    return ⟨machine, sink, if machine.running then none else some .halted⟩
  | limit + 1, machine, sink =>
    if machine.running then do
      match ← step machine sink with
      | ⟨machine, sink, .ok ()⟩ => runFor limit machine sink
      | ⟨machine, sink, .error fault⟩ => stop machine sink fault
    else return ⟨machine, sink, some .halted⟩

/-! ## Without the notes -/

section Values

variable {α β : Type}

@[simp] theorem value_pure (value : α) : (pure value : Noted α).value = value := rfl

@[simp] theorem value_bind (first : Noted α) (next : α → Noted β) :
    (first >>= next).value = (next first.value).value := rfl

@[simp] theorem value_address (number : Nat) : (address number).value = number := rfl

@[simp] theorem value_check (outcome : Except Fault α) : (check outcome).run.value = outcome := rfl

/-- Without their notes, computations in a row are the outcomes in a row. -/
theorem value_run_bind (first : ExceptT Fault Noted α) (next : α → ExceptT Fault Noted β) :
    (first >>= next).run.value = (first.run.value >>= fun value => (next value).run.value) := by
  rw [ExceptT.run_bind, value_bind]
  cases first.run.value with
  | error fault => rfl
  | ok value => rfl

@[simp] theorem value_read (memory : Memory) (number : Nat) :
    (read memory number).run.value = memory.read number := rfl

@[simp] theorem value_write (memory : Memory) (number : Nat) (value : UInt8) :
    (write memory number value).run.value = memory.write number value := rfl

end Values

section Operations

variable (machine : Machine) (operation : Operation) (sink : Sink)

theorem value_fetch : (fetch machine).run.value = machine.fetch := rfl

theorem value_operand (memory : Memory) (start count index : Nat) :
    (operand memory start count index).run.value =
      if index < count then memory.read (start + (index + 1)) else .ok 0 := by
  unfold operand
  split <;> rfl

theorem value_decode (memory : Memory) (start : Nat) :
    (decode memory start).run.value = Operation.decode memory start := by
  unfold decode Operation.decode
  rw [value_run_bind, value_read]
  congr 1
  funext raw
  cases Instruction.ofOpcode? raw with
  | none => rfl
  | some instruction =>
    simp only [value_run_bind, value_operand]
    -- Each operand is read or taken as zero on both sides.
    by_cases hfirst : 0 < instruction.operandCount
    · by_cases hsecond : 1 < instruction.operandCount
      · simp only [hfirst, hsecond, if_true]
        rfl
      · simp only [hfirst, hsecond, if_true, if_false]
        rfl
    · have hsecond : ¬ 1 < instruction.operandCount := by omega
      simp only [hfirst, hsecond, if_false]
      rfl

theorem value_push (memory : Memory) (registers : Registers) (limit value : UInt8) :
    (push memory registers limit value).run.value =
      Stack.push memory registers limit value := by
  unfold push
  by_cases hroom : limit < registers.stackPointer
  · simp only [if_pos hroom]
    rw [Stack.push_of_lt memory hroom, value_run_bind, value_write, Memory.write_toNat]
    rfl
  · simp only [if_neg hroom]
    rw [Stack.push_of_not_lt memory hroom, value_check]

theorem value_pop (memory : Memory) (registers : Registers) :
    (pop memory registers).run.value = Stack.pop memory registers := by
  unfold pop
  by_cases hpending : registers.stackPointer < Registers.stackTop
  · simp only [if_pos hpending]
    rw [Stack.pop_of_lt memory hpending, value_run_bind, value_read, Memory.read_toNat]
    rfl
  · simp only [if_neg hpending]
    rw [Stack.pop_of_not_lt memory hpending, value_check]

theorem value_control :
    (control machine operation (machine.behind operation)).run.value =
      machine.control operation := by
  unfold control
  split
  · next hcall =>
    unfold Machine.control
    simp only [hcall, value_run_bind, value_check, value_push]
    rfl
  · next hret =>
    unfold Machine.control
    simp only [hret, value_run_bind, value_pop]
    rfl
  · rfl

/-- A byte addresses a cell, so the memory that is read and written here is the one that the
    machine looks up without a check. -/
theorem value_transfer :
    (transfer machine operation).run.value = machine.transfer operation := by
  unfold transfer
  split
  · next hld =>
    unfold Machine.transfer
    simp only [hld, value_run_bind, value_check, value_read, Memory.read_toNat]
    rfl
  · next hst =>
    unfold Machine.transfer
    simp only [hst, value_run_bind, value_check, value_write, Memory.write_toNat]
    rfl
  · next hpush =>
    unfold Machine.transfer
    simp only [hpush, value_run_bind, value_check, value_push]
    rfl
  · next hpop =>
    unfold Machine.transfer
    simp only [hpop, value_run_bind, value_check, value_pop]
    rfl
  · rfl

theorem value_effect : (effect machine operation).run.value = machine.effect operation := by
  have hbehind : (ExceptT.lift (addressAt machine operation.width)).run.value =
      (.ok (machine.behind operation) : Except Fault Nat) := rfl
  unfold effect Machine.effect
  rw [value_run_bind, hbehind]
  cases operation.category with
  | arithmetic => rfl
  | control => exact value_control machine operation
  | simple =>
    show (simple machine operation (machine.behind operation)).run.value = _
    unfold simple Machine.simple
    rw [value_run_bind, value_transfer]
    rfl

theorem value_execute :
    (execute machine operation sink).value = machine.execute operation sink := by
  unfold execute Machine.execute
  rw [value_bind, value_effect]
  cases machine.effect operation with
  | error fault => rfl
  | ok effect =>
    cases hadmits : sink.admits effect.output <;> simp [hadmits]

/-- **Noting addresses changes nothing else about a step.** -/
theorem value_step : (step machine sink).value = machine.step sink := by
  unfold step Machine.step Machine.decode
  rw [value_bind, value_fetch]
  cases machine.fetch with
  | error fault => rfl
  | ok opcode =>
    simp only [value_bind, value_decode]
    cases Operation.decode machine.memory machine.pc.toNat with
    | error fault => rfl
    | ok operation =>
      simp only [value_bind, value_execute]
      obtain ⟨after, rest, result⟩ :=
        ({ machine with ir := opcode } : Machine).execute operation sink
      cases result with
      | error fault => rfl
      | ok next => rfl

theorem value_trace : (trace machine).value = machine.trace := rfl

theorem value_stop (fault : Fault) :
    (stop machine sink fault).value = machine.stop sink fault := by
  cases fault
  case unknownOpcode opcode =>
    unfold stop Machine.stop
    simp only [value_bind, value_trace, value_pure]
    rfl
  all_goals rfl

end Operations

/-- **Noting addresses changes nothing else about a run.** -/
theorem value_runFor (limit : Nat) (machine : Machine) (sink : Sink) :
    (runFor limit machine sink).value = machine.runFor limit sink := by
  induction limit generalizing machine sink with
  | zero => rfl
  | succ limit ih =>
    unfold runFor Machine.runFor
    cases machine.running with
    | false => rfl
    | true =>
      simp only [if_true, value_bind, value_step]
      obtain ⟨next, out, result⟩ := machine.step sink
      cases result with
      | error fault => exact value_stop next out fault
      | ok => exact ih next out

end Noted

end ByteMachine
