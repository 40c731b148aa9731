import ByteMachine.Flags
import ByteMachine.Operation
import ByteMachine.Program.Basic
import ByteMachine.Stack
import ByteMachine.Trace
/-!
# The machine

The state of the machine: memory, registers and flags, the program counter, the
opcode that was fetched last, the limit that the stack keeps above, whether the
machine runs, and the number of operations that it has carried out.

The program counter is a 64-bit number of which only the values below 256 are
addresses of cells; the machine may stand just behind memory, and fetching is
then a fault. A program counter can be set to anything, and what is added to it
is added in 64 bits as well.
-/

namespace ByteMachine

/-- The state of the machine. -/
structure Machine where
  memory : Memory := .blank
  registers : Registers := .initial
  flags : Flags := {}
  /-- The address of the next operation. -/
  pc : UInt64 := 0
  /-- The opcode that was fetched last. -/
  ir : UInt8 := 0
  /-- The lowest address that the stack may grow to. -/
  stackLimit : UInt8 := 0
  running : Bool := true
  /-- The number of operations carried out. -/
  cycles : UInt64 := 0
deriving DecidableEq, Repr

namespace Machine

/-- The machine before anything is loaded. -/
def initial : Machine := {}

instance : Inhabited Machine := ⟨initial⟩

/-- The stack limit for a program: the stack keeps clear of it. A program that
    fills memory leaves no room for a stack. -/
def limitFor (program : Program) : UInt8 :=
  UInt8.ofNat (min program.length 255)

/-- Copies a program to the start of memory. The cells behind it and all else
    but the stack limit stay as they are. -/
def load (machine : Machine) (program : Program) : Machine :=
  { machine with
    memory := machine.memory.overlay program.bytes
    stackLimit := limitFor program }

/-- Copies a program to the start of memory by the copy that asks for room first. -/
def tryLoad (machine : Machine) (program : Program) : Except LoadError Machine :=
  match machine.memory.load program.bytes with
  | .ok memory => .ok { machine with memory, stackLimit := limitFor program }
  | .error _ => .error (.tooLarge program.length Memory.capacity)

/-- A fresh machine with a program. -/
def ofProgram (program : Program) : Machine :=
  initial.load program

/-- The byte at the program counter. -/
def fetch (machine : Machine) : Except Fault UInt8 :=
  machine.memory.read machine.pc.toNat

/-- The operation at the program counter. -/
def decode (machine : Machine) : Except Fault Operation :=
  Operation.decode machine.memory machine.pc.toNat

/-- The address a number of cells behind the program counter. It starts again at
    zero behind the greatest number of 64 bits. -/
def addressAt (machine : Machine) (offset : Nat) : Nat :=
  (machine.pc + UInt64.ofNat offset).toNat

/-- The trace with the given cells. -/
def traceWith (machine : Machine) (first second third : Option UInt8) : Trace where
  pc := machine.pc.toNat
  flags := machine.flags.bits
  cells := #v[first, second, third]
  registers := machine.registers

/-- The trace of the present state. -/
def trace (machine : Machine) : Trace :=
  let cell (offset : Nat) := (machine.memory.read (machine.addressAt offset)).toOption
  machine.traceWith (cell 0) (cell 1) (cell 2)

/-- The trace where sums are checked: one that does not fit in 64 bits breaks the
    computation off. -/
def checkedTrace? (machine : Machine) : Option Trace := do
  let cell (offset : Nat) :=
    if machine.pc.toNat + offset < UInt64.size then
      some (machine.memory.read (machine.addressAt offset)).toOption
    else none
  return machine.traceWith (← cell 0) (← cell 1) (← cell 2)

/-! ## Addresses behind the program counter -/

/-- A sum that fits in 64 bits is the sum of the numbers. -/
theorem addressAt_of_lt {machine : Machine} {offset : Nat}
    (h : machine.pc.toNat + offset < UInt64.size) :
    machine.addressAt offset = machine.pc.toNat + offset := by
  unfold addressAt
  rw [UInt64.toNat_add, UInt64.toNat_ofNat', Nat.add_mod_mod, Nat.mod_eq_of_lt h]

/-! ## Loading -/

theorem cell_load (machine : Machine) (program : Program) (address : UInt8) :
    (machine.load program).memory.cell address
      = program.bytes.getD address.toNat (machine.memory.cell address) :=
  Memory.cell_overlay machine.memory program.bytes address

/-- There is always room for a program. -/
theorem tryLoad_eq (machine : Machine) (program : Program) :
    machine.tryLoad program = .ok (machine.load program) := by
  unfold tryLoad Memory.load
  rw [if_pos program.fits]
  rfl

theorem toNat_limitFor (program : Program) :
    (limitFor program).toNat = min program.length 255 := by
  have : min program.length 255 < 256 := by omega
  simp [limitFor, Nat.mod_eq_of_lt this]

end Machine

end ByteMachine
