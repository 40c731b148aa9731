import ByteMachine.Memory
/-!
# Programs

A program is a sequence of bytes that fits into memory, from address zero on.
The bound is part of the type, so loading a program into a machine never fails:
a sequence that is too long is refused where the program is made.
-/

namespace ByteMachine

/-- Why there is no program. -/
inductive LoadError where
  /-- There is no file at the path. -/
  | fileNotFound (path : String)
  /-- The file is there but its text cannot be read. -/
  | unreadable (path reason : String)
  /-- The text on a line, counted from one, is no literal of a byte. -/
  | malformedLiteral (line : Nat) (text : String)
  /-- The program has more bytes than memory has cells. -/
  | tooLarge (length capacity : Nat)
deriving DecidableEq, Repr

/-- The wording of a load error. -/
def LoadError.message : LoadError → String
  | fileNotFound path => "file not found: " ++ path
  | unreadable path reason => "failed to read " ++ path ++ ": " ++ reason
  | malformedLiteral line text =>
    "line " ++ line.repr ++ ": `" ++ text ++ "` is not an 8-bit binary literal"
  | tooLarge length capacity =>
    "program is " ++ length.repr ++ " bytes long but memory holds " ++ capacity.repr

/-- Bytes that fit into memory. -/
structure Program where
  bytes : List UInt8
  fits : bytes.length ≤ Memory.capacity
deriving DecidableEq, Repr

namespace Program

instance : Inhabited Program := ⟨⟨[], Nat.zero_le _⟩⟩

/-- The number of bytes. -/
def length (program : Program) : Nat :=
  program.bytes.length

/-- The program with the given bytes, unless there are too many. -/
def ofBytes (bytes : List UInt8) : Except LoadError Program :=
  if fits : bytes.length ≤ Memory.capacity then .ok ⟨bytes, fits⟩
  else .error (.tooLarge bytes.length Memory.capacity)

/-! ## Programs and their bytes -/

theorem length_le (program : Program) : program.length ≤ 256 :=
  program.fits

theorem ext_bytes {p q : Program} (h : p.bytes = q.bytes) : p = q := by
  cases p
  cases q
  congr

/-- Making a program from its own bytes gives it back. -/
@[simp] theorem ofBytes_bytes (program : Program) : ofBytes program.bytes = .ok program := by
  simp [ofBytes, program.fits]

theorem ofBytes_eq_ok_iff {bytes : List UInt8} {program : Program} :
    ofBytes bytes = .ok program ↔ bytes = program.bytes := by
  constructor
  · intro h
    simp only [ofBytes] at h
    split at h
    · cases h; rfl
    · cases h
  · rintro rfl
    exact ofBytes_bytes program

end Program

end ByteMachine
