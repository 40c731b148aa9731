import ByteMachine.Alu
import ByteMachine.Machine.Basic
/-!
# Effects of operations

What an operation does to the machine, as a value: the machine after it, the
address of the operation that follows and the text to print. An operation that
cannot be carried out has a fault in place of an effect, so a fault changes
nothing.

The three parts of the machine, one for each category, look at the instruction
themselves. An operation decoded from memory always reaches the part that knows
its instruction; one put together by hand may not, and is then unsupported.
-/

namespace ByteMachine

/-- What an operation does. -/
structure Effect where
  /-- The machine after the operation, but for its program counter. -/
  machine : Machine
  /-- The address of the operation that follows. -/
  next : Nat
  /-- The text to print. -/
  output : String := ""
deriving DecidableEq, Repr

namespace Machine

/-- The address behind an operation at the program counter. -/
def behind (machine : Machine) (operation : Operation) : Nat :=
  machine.addressAt operation.width

/-- An address as a byte, which is how a call stores it. -/
def returnAddress (address : Nat) : Except Fault UInt8 :=
  if address < 256 then .ok (UInt8.ofNat address) else .error (.memoryAddress address)

/-- The effect of an arithmetic operation. -/
def arithmetic (machine : Machine) (operation : Operation) : Except Fault Effect := do
  let op ← AluOp.ofInstruction operation.instruction
  let (registers, flags) ← op.apply operation.a operation.b machine.registers machine.flags
  return { machine := { machine with registers, flags }, next := machine.behind operation }

/-- The effect of a transfer of control. A jump checks its register also if it
    is not taken. -/
def control (machine : Machine) (operation : Operation) : Except Fault Effect :=
  match operation.instruction with
  | .call => do
    -- The target is read before the stack changes: it may be the stack pointer itself.
    let target ← machine.registers.read operation.a
    let back ← returnAddress (machine.behind operation)
    let (memory, registers) ←
      Stack.push machine.memory machine.registers machine.stackLimit back
    return { machine := { machine with memory, registers }, next := target.toNat }
  | .ret => do
    let (back, registers) ← Stack.pop machine.memory machine.registers
    return { machine := { machine with registers }, next := back.toNat }
  | instruction =>
    match instruction.condition? with
    | none => throw (.unsupported instruction)
    | some condition => do
      let target ← machine.registers.read operation.a
      return {
        machine
        next :=
          if machine.flags.satisfies condition then target.toNat
          else machine.behind operation }

/-- The machine after a simple operation, and the text that it prints. -/
def transfer (machine : Machine) (operation : Operation) :
    Except Fault (Machine × String) :=
  match operation.instruction with
  | .nop => return (machine, "")
  | .hlt => return ({ machine with running := false }, "")
  | .ldi => do
    let registers ← machine.registers.write operation.a operation.b
    return ({ machine with registers }, "")
  | .ld => do
    -- The source is looked at first, so of two bad registers it is the one reported.
    let address ← machine.registers.read operation.b
    let registers ← machine.registers.write operation.a (machine.memory.cell address)
    return ({ machine with registers }, "")
  | .st => do
    let address ← machine.registers.read operation.a
    let value ← machine.registers.read operation.b
    return ({ machine with memory := machine.memory.setCell address value }, "")
  | .prn => do
    let value ← machine.registers.read operation.a
    return (machine, value.toNat.repr ++ "\n")
  | .push => do
    let value ← machine.registers.read operation.a
    let (memory, registers) ←
      Stack.push machine.memory machine.registers machine.stackLimit value
    return ({ machine with memory, registers }, "")
  | .pop => do
    -- A bad destination counts before an empty stack.
    let _ ← machine.registers.read operation.a
    let (value, registers) ← Stack.pop machine.memory machine.registers
    -- The destination is written last, so popping into the stack pointer replaces it.
    let registers ← registers.write operation.a value
    return ({ machine with registers }, "")
  | instruction => throw (.unsupported instruction)

/-- The effect of a simple operation. A machine that does not run, be it that
    the operation has just halted it, stays where it is. -/
def simple (machine : Machine) (operation : Operation) : Except Fault Effect := do
  let (after, output) ← machine.transfer operation
  return {
    machine := after
    next := if after.running then machine.behind operation else machine.pc.toNat
    output }

/-- The effect of an operation at the program counter. -/
def effect (machine : Machine) (operation : Operation) : Except Fault Effect :=
  match operation.category with
  | .arithmetic => machine.arithmetic operation
  | .control => machine.control operation
  | .simple => machine.simple operation

end Machine

end ByteMachine
