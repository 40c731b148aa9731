import ByteMachine.Program.Listing
/-!
# Texts with every access checked

To show an operation, its operands are cut out of the bytes that were read for
them, and the line is chosen by how many there are; to list a program, its bytes
are looked up and cut out at every address of the walk. Each of these accesses
would fail beyond what is there, and no line has been laid out for more than two
operands.

Here the texts are made with every access checked: `none` stands for one that
fails.
-/

namespace ByteMachine

/-! ## Operations -/

namespace Operation

/-- The operands, cut out of the two bytes that there are for them. -/
def operands? (operation : Operation) : Option (List UInt8) :=
  if operation.operandCount ≤ 2 then
    some ([operation.first, operation.second].take operation.operandCount)
  else none

/-- What follows the mnemonic; nothing is laid out for more than two operands. -/
def operandText? : Instruction → List UInt8 → Option String
  | _, [] => some ""
  | .ldi, [register, number] => some (" " ++ registerName register ++ "," ++ number.toNat.repr)
  | _, [register] => some (" " ++ registerName register)
  | _, [register, other] => some (" " ++ registerName register ++ "," ++ registerName other)
  | _, _ => none

/-- The operation as a line of assembly. -/
def text? (operation : Operation) : Option String := do
  let operands ← operation.operands?
  let shown ← operandText? operation.instruction operands
  return operation.instruction.mnemonic ++ shown

end Operation

/-! ## Programs -/

namespace Program

variable (program : Program) {memory : Memory} {address : Nat}

/-- The bytes from one address up to another, if they are in order and both within the bytes. -/
def cut? (bytes : List UInt8) (start stop : Nat) : Option (List UInt8) :=
  if start ≤ stop ∧ stop ≤ bytes.length then some ((bytes.drop start).take (stop - start)) else none

/-- The number of bytes that the line at an address accounts for, and its text. -/
def lineAt? (memory : Memory) (address : Nat) : Option (Nat × String) :=
  match Operation.decode memory address with
  | .ok operation => operation.text?.map fun text => (operation.width, text)
  | .error _ =>
    program.bytes[address]?.map fun byte => (1, "DB " ++ Numeral.markedHex byte.toNat)

theorem lineAt?_pos {width : Nat} {text : String}
    (h : program.lineAt? memory address = some (width, text)) : 0 < width := by
  unfold lineAt? at h
  split at h
  · obtain ⟨_, -, h⟩ := Option.map_eq_some_iff.mp h
    cases h
    unfold Operation.width
    omega
  · obtain ⟨_, -, h⟩ := Option.map_eq_some_iff.mp h
    cases h
    exact Nat.one_pos

/-- The texts of the lines from an address on. -/
def walk? (memory : Memory) (address : Nat) : Option (List String) :=
  if address < program.length then
    match _ : program.lineAt? memory address with
    | none => none
    | some (width, text) => do
      -- The operation may be cut short by the end of the program, but it starts before that.
      let bytes ← cut? program.bytes address (min (address + width) program.length)
      let others ← walk? memory (address + width)
      return ListingLine.render { address, bytes, text } :: others
  else some []
termination_by program.length - address
decreasing_by
  have := program.lineAt?_pos ‹_›
  omega

/-- The listing as lines of text. -/
def disassemble? : Option (List String) :=
  match Memory.blank.load program.bytes with
  | .ok memory => program.walk? memory 0
  | .error _ => some []

end Program

end ByteMachine
