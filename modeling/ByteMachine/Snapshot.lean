import ByteMachine.Json.Basic
import ByteMachine.Machine.Basic
/-!
# Snapshots

A snapshot is the whole state of the machine as a JSON value. It is written as
an object with a member for each field; memory is an object of its own, with
the cells as its one member.

Reading accepts each of the two objects in a second form as well, the array of
its fields in their order. Members with other keys are ignored, but nothing may
be missing, and each number must be an integer in the range of its field.
-/

namespace ByteMachine.Snapshot

/-- The keys of a state, in order. -/
def stateKeys : List String :=
  ["memory", "registers", "flags", "pc", "ir", "stack_limit", "running", "cycles"]

/-- The keys of memory. -/
def memoryKeys : List String :=
  ["cells"]

/-! ## Writing -/

/-- A byte as a JSON value. -/
def ofByte (byte : UInt8) : Json :=
  .ofNat byte.toNat

/-- Bytes as a JSON value. -/
def ofBytes {n : Nat} (bytes : Vector UInt8 n) : Json :=
  .array (bytes.toList.map ofByte)

/-- The snapshot of a machine. -/
def encode (machine : Machine) : Json :=
  .object [
    ("memory", .object [("cells", ofBytes machine.memory.cells)]),
    ("registers", ofBytes machine.registers.cells),
    ("flags", ofByte machine.flags.bits),
    ("pc", .ofNat machine.pc.toNat),
    ("ir", ofByte machine.ir),
    ("stack_limit", ofByte machine.stackLimit),
    ("running", .bool machine.running),
    ("cycles", .ofNat machine.cycles.toNat)]

/-! ## Reading -/

/-- The values of the fields with the given keys: an object's members or, in
    the same order, an array's items. -/
def fields? (keys : List String) (value : Json) : Option (List Json) :=
  match value with
  | .object _ => keys.mapM fun key => value.member? key
  | .array items => if items.length = keys.length then some items else none
  | _ => none

/-- The natural number below a bound that a JSON value stands for. -/
def below? (bound : Nat) (value : Json) : Option Nat :=
  value.nat?.filter (· < bound)

/-- The byte that a JSON value stands for. -/
def byte? (value : Json) : Option UInt8 :=
  (below? UInt8.size value).map UInt8.ofNat

/-- The 64-bit number that a JSON value stands for. -/
def word? (value : Json) : Option UInt64 :=
  (below? UInt64.size value).map UInt64.ofNat

/-- The given number of bytes that a JSON value stands for. -/
def bytes? (n : Nat) (value : Json) : Option (Vector UInt8 n) := do
  let items ← value.items?
  let bytes ← items.mapM byte?
  -- Neither fewer nor more items than there are cells.
  if h : bytes.length = n then return ⟨bytes.toArray, h⟩ else none

/-- The memory that a JSON value stands for. -/
def memory? (value : Json) : Option Memory := do
  match ← fields? memoryKeys value with
  | [cells] => return ⟨← bytes? 256 cells⟩
  | _ => none

/-- The machine that a JSON value is a snapshot of. -/
def decode (value : Json) : Option Machine := do
  match ← fields? stateKeys value with
  | [memory, registers, flags, pc, ir, stackLimit, running, cycles] =>
    return {
      memory := ← memory? memory
      registers := ⟨← bytes? 8 registers⟩
      flags := ⟨← byte? flags⟩
      pc := ← word? pc
      ir := ← byte? ir
      stackLimit := ← byte? stackLimit
      running := ← running.bool?
      cycles := ← word? cycles }
  | _ => none

/-! ## Numbers -/

@[simp] theorem byte?_ofByte (byte : UInt8) : byte? (ofByte byte) = some byte := by
  have := byte.toNat_lt
  simp [byte?, ofByte, below?, Option.filter, this]

@[simp] theorem word?_ofNat (word : UInt64) : word? (.ofNat word.toNat) = some word := by
  have := word.toNat_lt
  simp [word?, below?, Option.filter, this]

end ByteMachine.Snapshot
