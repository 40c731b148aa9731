import ByteMachine.Proofs.Step
/-!
# Execution in place

The machine carries an operation out as a whole: its effect is worked out first and
taken or left. Here the same operations are carried out in place, one write after
the other, and an error leaves behind whatever has been written before it. The two
agree in the machine, the sink and the result, so every operation makes all of its
checks before its first write, also one that was put together by hand, and also if
the sink fails in the middle of a text.

## Main statements

- `InPlace.execute_eq`, `InPlace.step_eq`: carrying out in place is carrying out.
- `Machine.error_keeps_machine`: an error leaves the machine as it was.
-/

namespace ByteMachine

/-- A computation that works on the machine and the sink in place. -/
def InPlace (α : Type) : Type :=
  Machine → Sink → Reply α

namespace InPlace

/-! ## Single reads and writes -/

instance : Monad InPlace where
  pure value := fun machine sink => ⟨machine, sink, .ok value⟩
  bind first next := fun machine sink =>
    match first machine sink with
    | ⟨machine, sink, .ok value⟩ => next value machine sink
    -- What the first part has written stays.
    | ⟨machine, sink, .error fault⟩ => ⟨machine, sink, .error fault⟩

/-- Reads something off the machine, which may be a fault. -/
def read {α : Type} (part : Machine → Except Fault α) : InPlace α :=
  fun machine sink => ⟨machine, sink, part machine⟩

/-- Writes something to the machine. -/
def write (change : Machine → Machine) : InPlace Unit :=
  fun machine sink => ⟨change machine, sink, .ok ()⟩

def readRegister (index : UInt8) : InPlace UInt8 :=
  read (·.registers.read index)

def writeRegister (index value : UInt8) : InPlace Unit := do
  let registers ← read (·.registers.write index value)
  write ({ · with registers })

def readCell (address : UInt8) : InPlace UInt8 :=
  read (·.memory.read address.toNat)

def writeCell (address value : UInt8) : InPlace Unit := do
  let memory ← read (·.memory.write address.toNat value)
  write ({ · with memory })

def writePointer (value : UInt8) : InPlace Unit :=
  write fun machine =>
    { machine with registers := machine.registers.setStackPointer value }

/-- Prints a text. A sink that has no room for it takes what fits. -/
def print (text : String) : InPlace Unit :=
  fun machine sink =>
    ⟨machine, sink.offer text,
      if sink.admits text then .ok () else .error (.output sink.refusal.reason)⟩

/-! ## Operations -/

def push (value : UInt8) : InPlace Unit := do
  let pointer ← read (.ok ·.registers.stackPointer)
  let limit ← read (.ok ·.stackLimit)
  if limit < pointer then
    writeCell (pointer - 1) value
    writePointer (pointer - 1)
  else read fun _ => .error (.stackOverflow limit)

def pop : InPlace UInt8 := do
  let pointer ← read (.ok ·.registers.stackPointer)
  if pointer < Registers.stackTop then
    let value ← readCell pointer
    writePointer (pointer + 1)
    return value
  else read fun _ => .error .stackUnderflow

def arithmetic (operation : Operation) (next : Nat) : InPlace Nat := do
  let op ← read fun _ => AluOp.ofInstruction operation.instruction
  let outcome ← read fun machine =>
    op.apply operation.a operation.b machine.registers machine.flags
  write ({ · with registers := outcome.1 })
  write ({ · with flags := outcome.2 })
  return next

def control (operation : Operation) (next : Nat) : InPlace Nat :=
  match operation.instruction with
  | .call => do
    let target ← readRegister operation.a
    let back ← read fun _ => Machine.returnAddress next
    push back
    return target.toNat
  | .ret => do
    let back ← pop
    return back.toNat
  | instruction => do
    let condition ← read fun _ =>
      instruction.condition?.elim (.error (.unsupported instruction)) .ok
    let target ← readRegister operation.a
    let taken ← read (.ok <| ·.flags.satisfies condition)
    return if taken then target.toNat else next

def simple (operation : Operation) : InPlace Unit :=
  match operation.instruction with
  | .nop => return ()
  | .hlt => write ({ · with running := false })
  | .ldi => writeRegister operation.a operation.b
  | .ld => do
    let address ← readRegister operation.b
    let value ← readCell address
    writeRegister operation.a value
  | .st => do
    let address ← readRegister operation.a
    let value ← readRegister operation.b
    writeCell address value
  | .prn => do
    let value ← readRegister operation.a
    print (value.toNat.repr ++ "\n")
  | .push => do
    let value ← readRegister operation.a
    push value
  | .pop => do
    let _ ← readRegister operation.a
    let value ← pop
    writeRegister operation.a value
  | instruction => read fun _ => .error (.unsupported instruction)

/-- Carries out an operation and gives the address of the one that follows. -/
def execute (operation : Operation) : InPlace Nat := do
  let next ← read (.ok <| ·.behind operation)
  match operation.category with
  | .arithmetic => arithmetic operation next
  | .control => control operation next
  | .simple => do
    simple operation
    read fun machine => .ok (if machine.running then next else machine.pc.toNat)

/-- Fetches, decodes and carries out one operation. -/
def step : InPlace Unit := do
  let opcode ← read Machine.fetch
  write ({ · with ir := opcode })
  let operation ← read Machine.decode
  let next ← execute operation
  write ({ · with pc := UInt64.ofNat next })
  write fun machine => { machine with cycles := machine.cycles + 1 }

/-! ## One read or write at a time -/

section Sequence

variable {α β : Type} (machine : Machine) (sink : Sink)

/-- An outcome that was worked out before anything is written. -/
def settle (outcome : Except Fault α) (next : α → Reply β) : Reply β :=
  match outcome with
  | .error fault => ⟨machine, sink, .error fault⟩
  | .ok value => next value

/-- A changed machine that waits for the sink to take the output. -/
def deliver (after : Machine) (output : String) (value : β) : Reply β :=
  if sink.admits output then ⟨after, sink.offer output, .ok value⟩
  else ⟨machine, sink.offer output, .error (.output sink.refusal.reason)⟩

theorem settle_ok (value : α) (next : α → Reply β) :
    settle machine sink (.ok value) next = next value := rfl

theorem settle_pure (value : α) (next : α → Reply β) :
    settle machine sink (pure value) next = next value := rfl

/-- A check comes before everything that follows it. -/
theorem settle_refusal (p : Prop) [Decidable p] (fault : Fault) (outcome : Except Fault α)
    (next : α → Reply β) :
    settle machine sink (if p then .error fault else outcome) next =
      if p then ⟨machine, sink, .error fault⟩ else settle machine sink outcome next := by
  split <;> rfl

/-- The empty text is always taken and leaves the sink as it is. -/
theorem deliver_empty (after : Machine) (value : β) :
    deliver machine sink after "" value = ⟨after, sink, .ok value⟩ := by
  unfold deliver
  rw [if_pos sink.admits_empty, sink.offer_empty]

theorem print_apply (text : String) :
    print text machine sink = deliver machine sink machine text () := by
  unfold print deliver
  split <;> rfl

theorem read_bind (part : Machine → Except Fault α) (next : α → InPlace β) :
    (read part >>= next) machine sink =
      settle machine sink (part machine) fun value => next value machine sink := by
  unfold settle
  cases hpart : part machine with
  | error fault => simp only [bind, read, hpart]
  | ok value => simp only [bind, read, hpart]

theorem write_bind (change : Machine → Machine) (next : Unit → InPlace β) :
    (write change >>= next) machine sink = next () (change machine) sink := rfl

end Sequence

/-! ## Registers, cells and the stack -/

section Access

variable {β : Type} (machine : Machine) (sink : Sink)

theorem readRegister_bind (index : UInt8) (next : UInt8 → InPlace β) :
    (readRegister index >>= next) machine sink =
      if 8 ≤ index then ⟨machine, sink, .error (.registerIndex index)⟩
      else next (machine.registers.get index) machine sink := by
  unfold readRegister
  rw [read_bind, Registers.read_eq, settle_refusal, settle_ok]

theorem writeRegister_apply (index value : UInt8) :
    writeRegister index value machine sink =
      if 8 ≤ index then ⟨machine, sink, .error (.registerIndex index)⟩
      else ⟨{ machine with registers := machine.registers.put index value }, sink, .ok ()⟩ := by
  unfold writeRegister
  rw [read_bind, Registers.write_eq, settle_refusal, settle_ok]
  rfl

/-- A byte addresses a cell, so reading one in place never fails. -/
theorem readCell_bind (address : UInt8) (next : UInt8 → InPlace β) :
    (readCell address >>= next) machine sink =
      next (machine.memory.cell address) machine sink := by
  unfold readCell
  rw [read_bind, Memory.read_toNat, settle_ok]

theorem writeCell_apply (address value : UInt8) :
    writeCell address value machine sink =
      ⟨{ machine with memory := machine.memory.setCell address value }, sink, .ok ()⟩ := by
  unfold writeCell
  rw [read_bind, Memory.write_toNat, settle_ok]
  rfl

/-- A push writes twice, and nothing can fail once it has begun to. -/
theorem push_apply (value : UInt8) :
    push value machine sink =
      settle machine sink
        (Stack.push machine.memory machine.registers machine.stackLimit value)
        fun stack =>
          ⟨{ machine with memory := stack.1, registers := stack.2 }, sink, .ok ()⟩ := by
  unfold push
  rw [read_bind, settle_ok, read_bind, settle_ok]
  by_cases hroom : machine.stackLimit < machine.registers.stackPointer
  · -- A byte addresses the cell, so the first write succeeds, and the second always does.
    rw [if_pos hroom, Stack.push_of_lt _ hroom, settle_ok]
    have hcell := writeCell_apply machine sink (machine.registers.stackPointer - 1) value
    simp only [bind, hcell]
    rfl
  · rw [if_neg hroom, Stack.push_of_not_lt _ hroom]
    rfl

theorem pop_apply :
    pop machine sink =
      settle machine sink (Stack.pop machine.memory machine.registers)
        fun stack => ⟨{ machine with registers := stack.2 }, sink, .ok stack.1⟩ := by
  unfold pop
  rw [read_bind, settle_ok]
  by_cases hpending : machine.registers.stackPointer < Registers.stackTop
  · rw [if_pos hpending, Stack.pop_of_lt _ hpending, settle_ok, readCell_bind]
    rfl
  · rw [if_neg hpending, Stack.pop_of_not_lt _ hpending]
    rfl

/-- What follows a part that writes all or nothing. -/
theorem bind_of_settle {α γ : Type} {first : InPlace α} {outcome : Except Fault γ}
    {after : γ → Machine} {result : γ → α}
    (h : first machine sink =
      settle machine sink outcome fun value => ⟨after value, sink, .ok (result value)⟩)
    (next : α → InPlace β) :
    (first >>= next) machine sink =
      settle machine sink outcome fun value => next (result value) (after value) sink := by
  cases outcome with
  | error fault =>
    have hfirst : first machine sink = ⟨machine, sink, .error fault⟩ := h
    simp only [bind, hfirst]
    rfl
  | ok value =>
    have hfirst : first machine sink = ⟨after value, sink, .ok (result value)⟩ := h
    simp only [bind, hfirst]
    rfl

end Access

/-! ## The three parts -/

section Parts

variable (machine : Machine) (operation : Operation) (sink : Sink)

/-- A simple operation in place: PRN is the only one that the sink can refuse, and
    PUSH and POP the only ones that write twice. -/
theorem simple_apply :
    simple operation machine sink =
      settle machine sink (machine.transfer operation)
        fun outcome => deliver machine sink outcome.1 outcome.2 () := by
  unfold simple Machine.transfer
  -- In each case both sides come down to the same checks with the same outcome behind.
  cases operation.instruction
  case nop => exact (deliver_empty machine sink machine ()).symm
  case hlt => exact (deliver_empty machine sink { machine with running := false } ()).symm
  case ldi =>
    simp only [writeRegister_apply, Registers.write_eq, refusal_bind]
    rw [settle_refusal]
    simp only [settle_pure, deliver_empty]
  case ld =>
    simp only [readRegister_bind, readCell_bind, writeRegister_apply, Registers.read_eq,
      Registers.write_eq, refusal_bind]
    rw [settle_refusal, settle_refusal]
    simp only [settle_pure, deliver_empty]
  case st =>
    simp only [readRegister_bind, writeCell_apply, Registers.read_eq, refusal_bind]
    rw [settle_refusal, settle_refusal]
    simp only [settle_pure, deliver_empty]
  case prn =>
    simp only [readRegister_bind, Registers.read_eq, refusal_bind]
    rw [settle_refusal]
    simp only [settle_pure, print_apply]
  case push =>
    simp only [readRegister_bind, push_apply, Registers.read_eq, Stack.push_eq, refusal_bind]
    rw [settle_refusal, settle_refusal, settle_refusal]
    simp only [settle_ok, settle_pure, deliver_empty]
  case pop =>
    simp only [readRegister_bind, bind_of_settle machine sink (pop_apply machine sink),
      writeRegister_apply, Registers.read_eq, Registers.write_eq, Stack.pop_eq, refusal_bind]
    rw [settle_refusal, settle_refusal, settle_refusal]
    by_cases ha : 8 ≤ operation.a
    · rw [if_pos ha, if_pos ha]
    · -- The destination was found good before the stack was touched.
      simp only [ha, if_false, settle_ok, settle_pure, deliver_empty]
  all_goals rfl

/-- What an effect leads to once the sink takes its output. -/
def commit (effect : Effect) : Reply Nat :=
  deliver machine sink effect.machine effect.output effect.next

theorem arithmetic_apply :
    arithmetic operation (machine.behind operation) machine sink =
      settle machine sink (machine.arithmetic operation) (commit machine sink) := by
  unfold arithmetic Machine.arithmetic
  rw [read_bind]
  cases AluOp.ofInstruction operation.instruction with
  | error fault => rfl
  | ok op =>
    rw [settle_ok, read_bind, ok_bind]
    cases op.apply operation.a operation.b machine.registers machine.flags with
    | error fault => rfl
    | ok outcome => exact (deliver_empty machine sink _ _).symm

/-- A transfer of control in place: CALL makes all three checks before it writes. -/
theorem control_apply :
    control operation (machine.behind operation) machine sink =
      settle machine sink (machine.control operation) (commit machine sink) := by
  unfold control Machine.control
  cases operation.instruction
  case call =>
    simp only [readRegister_bind, read_bind,
      bind_of_settle machine sink (push_apply machine sink _), Registers.read_eq,
      Machine.returnAddress_eq, Stack.push_eq, refusal_bind]
    rw [settle_refusal, settle_refusal, settle_refusal, settle_refusal]
    simp only [settle_ok, settle_refusal, settle_pure, commit, deliver_empty]
    rfl
  case ret =>
    simp only [bind_of_settle machine sink (pop_apply machine sink), Stack.pop_eq, refusal_bind]
    rw [settle_refusal, settle_refusal]
    simp only [settle_ok, settle_pure, commit, deliver_empty]
    rfl
  case jmp | jeq | jne | jgt | jlt | jge | jle =>
    simp only [Instruction.condition?, read_bind, Option.elim, settle_ok, readRegister_bind,
      Registers.read_eq, refusal_bind]
    rw [settle_refusal]
    simp only [settle_pure, commit, deliver_empty]
    rfl
  all_goals rfl

/-- A simple operation does not touch the program counter, so it may be read before or
    after. -/
theorem pc_of_transfer {machine : Machine} {operation : Operation} {outcome : Machine × String}
    (h : machine.transfer operation = .ok outcome) : outcome.1.pc = machine.pc := by
  unfold Machine.transfer at h
  cases hinstruction : operation.instruction <;> rw [hinstruction] at h
  case nop | hlt =>
    cases h
    rfl
  case ldi | ld | st | prn | push | pop =>
    simp only [Registers.read_eq, Registers.write_eq, Stack.push_eq, Stack.pop_eq,
      refusal_bind] at h
    -- Each check that fails contradicts the success.
    repeat' split at h
    all_goals cases h
    all_goals rfl
  all_goals cases h

/-- **An operation in place** is the operation as a whole, whether it comes from memory
    or was put together by hand. -/
theorem execute_eq : execute operation machine sink = machine.execute operation sink := by
  have hwhole : machine.execute operation sink =
      settle machine sink (machine.effect operation) (commit machine sink) := by
    unfold Machine.execute settle
    cases machine.effect operation with
    | error fault => rfl
    | ok effect => rfl
  rw [hwhole]
  unfold execute Machine.effect
  rw [read_bind, settle_ok]
  -- The category decides on both sides which part the operation goes to.
  cases operation.category with
  | arithmetic => exact arithmetic_apply machine operation sink
  | control => exact control_apply machine operation sink
  | simple =>
    simp only [bind, simple_apply]
    unfold Machine.simple
    cases htransfer : machine.transfer operation with
    | error fault => rfl
    | ok outcome =>
      rw [settle_ok, ok_bind, settle_pure]
      -- Where to go on is read off the changed machine here, and off the old one there.
      unfold commit deliver
      cases sink.admits outcome.2 with
      | true =>
        simp only [read, pc_of_transfer htransfer, if_true]
      | false => rfl

end Parts

/-- **A step in place** is the step as a whole. -/
theorem step_eq (machine : Machine) (sink : Sink) : step machine sink = machine.step sink := by
  unfold step Machine.step
  rw [read_bind]
  cases machine.fetch with
  | error fault => rfl
  | ok opcode =>
    rw [settle_ok, write_bind, read_bind]
    cases hdecode : ({ machine with ir := opcode } : Machine).decode with
    | error fault => simp only [hdecode, settle]
    | ok operation =>
      simp only [hdecode, settle_ok, bind, execute_eq]
      -- The operation has been carried out, and what remains is to advance.
      obtain ⟨after, rest, result⟩ :=
        ({ machine with ir := opcode } : Machine).execute operation sink
      cases result with
      | error fault => rfl
      | ok next => rfl

end InPlace

/-! ## Errors -/

namespace Machine

theorem execute_of_error {machine : Machine} {operation : Operation} {sink : Sink}
    {fault : Fault} (h : (machine.execute operation sink).result = .error fault) :
    (machine.execute operation sink).machine = machine := by
  unfold execute at h ⊢
  cases heffect : machine.effect operation with
  | error reason => rfl
  | ok effect =>
    rw [heffect] at h
    -- There is an effect, so the error can only be that of the sink.
    cases hadmits : sink.admits effect.output with
    | false => simp only [hadmits, Bool.false_eq_true, if_false]
    | true =>
      simp only [hadmits, if_true] at h
      cases h

/-- A failed step has only fetched. -/
theorem step_of_error {machine : Machine} {sink : Sink} {fault : Fault}
    (h : (machine.step sink).result = .error fault) :
    (machine.step sink).machine = machine.fetched := by
  cases hfault : machine.fault? with
  | some reason => rw [step_of_fault hfault]
  | none =>
    obtain ⟨instruction, hexecutes⟩ := fault?_eq_none_iff.mp hfault
    rw [step_of_executes hexecutes] at h ⊢
    cases hadmits : sink.admits (machine.outputAfter instruction) with
    | false => simp only [Bool.false_eq_true, if_false]
    | true =>
      rw [hadmits] at h
      cases h

/-- **An error leaves the machine as it was.** Carried out in place, an operation or a
    step ends like one that is carried out as a whole, so what an error leaves behind is
    not hidden by taking it back: after an operation it is the machine before, for any
    operation and any sink, and after a step the same but for the fetched opcode. -/
theorem error_keeps_machine (machine : Machine) (sink : Sink) :
    (∀ operation : Operation,
      InPlace.execute operation machine sink = machine.execute operation sink ∧
      ∀ fault, (machine.execute operation sink).result = .error fault →
        (machine.execute operation sink).machine = machine) ∧
    InPlace.step machine sink = machine.step sink ∧
    ∀ fault, (machine.step sink).result = .error fault →
      (machine.step sink).machine =
        if machine.pc.toNat < 256 then { machine with ir := machine.ahead 0 } else machine := by
  refine ⟨fun operation => ⟨InPlace.execute_eq machine operation sink, ?_⟩,
    InPlace.step_eq machine sink, ?_⟩
  · intro fault h
    exact execute_of_error h
  · intro fault h
    rw [step_of_error h]
    split
    · next hlt => exact machine.fetched_of_lt hlt
    · next hge => exact machine.fetched_of_ge (Nat.not_lt.mp hge)

/-- A sink that fails in the middle of the line of PRN has taken a part of it, and a PRN
    that claims to be arithmetic is not supported; the machine stands as before. -/
theorem error_keeps_machine_prn :
    let machine := ofProgram ⟨[0x47, 0], by decide⟩
    let sink : Sink := { room := some 1, refusal := .failing "full" }
    let operation : Operation :=
      { instruction := .prn, category := .arithmetic, operandCount := 2, raw := 0x47 }
    ((machine.execute operation sink).result = .error (.unsupported .prn) ∧
      (machine.execute operation sink).machine = machine) ∧
    (machine.step sink).result = .error (.output "full") ∧
      (machine.step sink).sink.written = "0" ∧
      (machine.step sink).machine =
        if machine.pc.toNat < 256 then { machine with ir := machine.ahead 0 } else machine :=
  have hexecutes : (ofProgram ⟨[0x47, 0], by decide⟩).Executes .prn :=
    ⟨by decide +kernel, by decide +kernel, by decide +kernel⟩
  have hreply : ((ofProgram ⟨[0x47, 0], by decide⟩).step
      { room := some 1, refusal := .failing "full" }).result = .error (.output "full") := by
    rw [step_of_executes hexecutes, if_neg (by decide +kernel)]
    rfl
  ⟨⟨rfl, ((error_keeps_machine _ _).1 _).2 _ rfl⟩,
    hreply, by decide +kernel, (error_keeps_machine _ _).2.2 _ hreply⟩

end Machine

end ByteMachine
