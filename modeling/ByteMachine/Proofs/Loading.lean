import ByteMachine.Program.Source
import ByteMachine.Proofs.CheckedTexts
import ByteMachine.Proofs.Encoding
/-!
# Loading programs

How many bytes memory holds is asked in four places: where a program is made, where bytes are
copied to memory, where a machine takes a program, and where a program is listed. Here bytes are
loaded in place, one cell after the other, and each place asks for itself. They agree: what has
been made into a program is taken everywhere, and what is refused is refused before anything has
been written. Loading is a partial reset, so a machine keeps what it has behind the program, and
all but the stack limit besides its memory.

## Main definitions

- `Memory.loadInPlace`, `Machine.loadInPlace`: loading, cell by cell.
- `Machine.Loads`: what loading makes of a machine.

## Main statements

- `Memory.loadInPlace_of_le`: bytes that fit are copied as a whole.
- `Machine.loads_iff`: loading makes of a machine what it should, and nothing else does.
- `Machine.load_touches_only_program`: programs are taken, and longer bytes are not.
-/

namespace ByteMachine

/-! ## Bytes into memory -/

namespace Memory

variable (memory : Memory) {bytes : List UInt8} {address : Nat}

/-- Writes bytes in place, one after the other from an address on. At a fault the bytes before it
    have been written. -/
def writeEach (memory : Memory) (address : Nat) : List UInt8 → Memory × Except Fault Unit
  | [] => (memory, .ok ())
  | byte :: rest =>
    match memory.write address byte with
    | .ok begun => begun.writeEach (address + 1) rest
    | .error fault => (memory, .error fault)

/-- Copies bytes to the start of memory in place. Room for all of them is asked for before the
    first one is written. -/
def loadInPlace (memory : Memory) (bytes : List UInt8) : Memory × Except Fault Unit :=
  if bytes.length ≤ capacity then memory.writeEach 0 bytes
  else (memory, .error (.memoryAddress capacity))

theorem ext_bytes {memory other : Memory} (h : memory.bytes = other.bytes) : memory = other := by
  cases memory
  cases other
  congr 1
  exact Vector.toList_inj.mp h

theorem writeEach_of_writeAll {written : Memory} (h : memory.writeAll address bytes = .ok written) :
    memory.writeEach address bytes = (written, .ok ()) := by
  -- Each write goes on in the memory that the one before has left, at the next address.
  induction bytes generalizing memory address with
  | nil =>
    cases h
    rfl
  | cons byte rest ih =>
    rw [writeAll] at h
    obtain ⟨begun, hbegun, hrest⟩ := bind_eq_ok_iff.mp h
    rw [writeEach, hbegun]
    exact ih begun hrest

/-- The bytes come first, and all other cells stay. -/
theorem bytes_overlay (h : bytes.length ≤ capacity) :
    (memory.overlay bytes).bytes = bytes ++ memory.bytes.drop bytes.length := by
  apply List.ext_getElem?
  intro index
  rcases Nat.lt_or_ge index capacity with hlt | hge
  · have hbyte : (UInt8.ofNat index).toNat = index := UInt8.toNat_ofNat_of_lt' hlt
    rw [getElem?_bytes _ hlt, cell_overlay, hbyte, List.getD_eq_getElem?_getD,
      List.getElem?_append]
    split
    · next hinside => rw [List.getElem?_eq_getElem hinside, Option.getD_some]
    · next hbehind =>
      rw [List.getElem?_eq_none (Nat.not_lt.mp hbehind), Option.getD_none, List.getElem?_drop,
        Nat.add_sub_cancel' (Nat.not_lt.mp hbehind), getElem?_bytes _ hlt]
  · -- Both lists have ended.
    have hlength : (bytes ++ memory.bytes.drop bytes.length).length = capacity := by
      rw [List.length_append, List.length_drop, length_bytes]
      omega
    rw [(getElem?_bytes_eq_none_iff _).mpr hge, List.getElem?_eq_none (hlength.symm ▸ hge)]

/-- **Bytes that fit are copied as a whole.** -/
theorem loadInPlace_of_le (h : bytes.length ≤ capacity) :
    memory.loadInPlace bytes = (memory.overlay bytes, .ok ()) := by
  have hroom : 0 + bytes.length ≤ capacity := by rwa [Nat.zero_add]
  obtain ⟨written, hwritten, hbytes⟩ := memory.bytes_writeAll hroom
  have hwhole : written = memory.overlay bytes := by
    apply ext_bytes
    rw [hbytes, memory.bytes_overlay h, List.take_zero, List.nil_append, Nat.zero_add]
  unfold loadInPlace
  rw [if_pos h, memory.writeEach_of_writeAll hwritten, hwhole]

/-- Of more bytes none is written. -/
theorem loadInPlace_of_lt (h : capacity < bytes.length) :
    memory.loadInPlace bytes = (memory, .error (.memoryAddress capacity)) := by
  unfold loadInPlace
  rw [if_neg (Nat.not_le.mpr h)]

end Memory

/-! ## Making programs -/

namespace Program

variable {program : Program} {bytes : List UInt8}

theorem length_of_ofBytes (h : ofBytes bytes = .ok program) :
    program.bytes.length ≤ Memory.capacity := by
  unfold ofBytes at h
  split at h
  · next hfits =>
    cases h
    exact hfits
  · cases h

theorem ofBytes_of_lt (h : Memory.capacity < bytes.length) :
    ofBytes bytes = .error (.tooLarge bytes.length Memory.capacity) := by
  unfold ofBytes
  rw [dif_neg (Nat.not_le.mpr h)]

/-- A program that a text describes is made from the bytes on its lines. -/
theorem exists_ofBytes_of_parse {source : String} (h : parse source = .ok program) :
    ∃ bytes, ofBytes bytes = .ok program := by
  unfold parse at h
  split at h
  · next bytes _ => exact ⟨bytes, h⟩
  · cases h

end Program

/-! ## Programs into machines -/

namespace Machine

variable {machine middle after : Machine} {program first second : Program}

/-- Loads bytes into the machine in place: first they are copied to memory, then the stack limit
    is set behind them, to the last cell if their number is no byte. -/
def loadInPlace (machine : Machine) (bytes : List UInt8) : Machine × Except LoadError Unit :=
  match machine.memory.loadInPlace bytes with
  | (memory, .ok ()) =>
    ({ machine with
        memory
        stackLimit := if bytes.length < 256 then UInt8.ofNat bytes.length else 255 }, .ok ())
  | (memory, .error _) =>
    ({ machine with memory }, .error (.tooLarge bytes.length Memory.capacity))

/-- A fresh machine with bytes that are loaded in place. -/
def startInPlace (bytes : List UInt8) : Except LoadError Machine :=
  match initial.loadInPlace bytes with
  | (machine, .ok ()) => .ok machine
  | (_, .error error) => .error error

/-- What loading a program makes of a machine: the cells of the program hold its bytes, the stack
    keeps clear of them, and all else is as before. -/
structure Loads (program : Program) (machine after : Machine) : Prop where
  inside : ∀ address < program.length, after.memory.bytes[address]? = program.bytes[address]?
  behind : ∀ address, program.length ≤ address →
    after.memory.bytes[address]? = machine.memory.bytes[address]?
  stackLimit : after.stackLimit.toNat = min program.length 255
  registers : after.registers = machine.registers
  flags : after.flags = machine.flags
  pc : after.pc = machine.pc
  ir : after.ir = machine.ir
  running : after.running = machine.running
  cycles : after.cycles = machine.cycles

theorem bytes_load (machine : Machine) (program : Program) :
    (machine.load program).memory.bytes =
      program.bytes ++ machine.memory.bytes.drop program.length :=
  machine.memory.bytes_overlay program.fits

theorem loads_load (machine : Machine) (program : Program) :
    Loads program machine (machine.load program) where
  inside address h := by
    rw [bytes_load, List.getElem?_append_left h]
  behind address h := by
    rw [bytes_load, List.getElem?_append_right h, List.getElem?_drop]
    exact congrArg (machine.memory.bytes[·]?) (Nat.add_sub_cancel' h)
  stackLimit := toNat_limitFor program
  registers := rfl
  flags := rfl
  pc := rfl
  ir := rfl
  running := rfl
  cycles := rfl

/-- **Loading makes of a machine what it should**, and nothing else does. -/
theorem loads_iff : Loads program machine after ↔ after = machine.load program := by
  constructor
  · intro h
    have hload := loads_load machine program
    have hmemory : after.memory = (machine.load program).memory := by
      apply Memory.ext_bytes
      apply List.ext_getElem?
      intro address
      -- The program decides up to its end, and the old memory behind it.
      rcases Nat.lt_or_ge address program.length with hlt | hge
      · rw [h.inside address hlt, hload.inside address hlt]
      · rw [h.behind address hge, hload.behind address hge]
    have hlimit : after.stackLimit = (machine.load program).stackLimit := by
      rw [← UInt8.toNat_inj, h.stackLimit, hload.stackLimit]
    obtain ⟨-, -, -, hregisters, hflags, hpc, hir, hrunning, hcycles⟩ := h
    cases after
    congr
  · rintro rfl
    exact loads_load machine program

/-- A program that is loaded over another one leaves the end of a longer one. -/
theorem Loads.getElem?_over (hfirst : Loads first machine middle)
    (hsecond : Loads second middle after) {address : Nat} (hbehind : second.length ≤ address)
    (hinside : address < first.length) :
    after.memory.bytes[address]? = first.bytes[address]? := by
  rw [hsecond.behind address hbehind, hfirst.inside address hinside]

theorem loadInPlace_of_le (machine : Machine) (h : program.bytes.length ≤ Memory.capacity) :
    machine.loadInPlace program.bytes = (machine.load program, .ok ()) := by
  have hlimit : (if program.bytes.length < 256 then UInt8.ofNat program.bytes.length else 255) =
      limitFor program := by
    rw [← UInt8.toNat_inj, toNat_limitFor]
    unfold Program.length
    split
    · next hlt =>
      rw [UInt8.toNat_ofNat_of_lt' hlt]
      omega
    · next hge =>
      rw [Nat.min_eq_right (by omega)]
      rfl
  unfold loadInPlace
  rw [machine.memory.loadInPlace_of_le h]
  dsimp only
  rw [hlimit]
  rfl

theorem loadInPlace_of_lt (machine : Machine) {bytes : List UInt8}
    (h : Memory.capacity < bytes.length) :
    machine.loadInPlace bytes = (machine, .error (.tooLarge bytes.length Memory.capacity)) := by
  unfold loadInPlace
  rw [machine.memory.loadInPlace_of_lt h]

/-- **Loading takes every program and touches only what it has to.** Take any machine and any
    program that has been made, from bytes or from a text. Loading it in place succeeds, also into
    a fresh machine and into the memory from which it is listed, so the listing is always that of
    its bytes. What loading leaves is the program in its cells, the stack limit behind it, and all
    else as it was. A program loaded before it keeps the cells behind it, but not its stack limit.
    More bytes than memory has cells are no program, and to load them is refused with memory and
    machine as they were. -/
theorem load_touches_only_program (machine : Machine) (program : Program)
    (h : (∃ bytes, Program.ofBytes bytes = .ok program) ∨
      ∃ source, Program.parse source = .ok program) :
    (machine.loadInPlace program.bytes = (machine.load program, .ok ()) ∧
      Loads program machine (machine.load program)) ∧
    startInPlace program.bytes = .ok (ofProgram program) ∧
    (Memory.blank.loadInPlace program.bytes = (program.image, .ok ()) ∧
      program.disassemble? = program.walk? program.image 0) ∧
    (∀ earlier : Program,
      let after := (machine.load earlier).load program
      (∀ address, program.length ≤ address → address < earlier.length →
        after.memory.bytes[address]? = earlier.bytes[address]?) ∧
      after.stackLimit.toNat = min program.length 255) ∧
    ∀ bytes : List UInt8, 256 < bytes.length →
      Program.ofBytes bytes = .error (.tooLarge bytes.length 256) ∧
      machine.loadInPlace bytes = (machine, .error (.tooLarge bytes.length 256)) ∧
      ∀ memory : Memory, memory.loadInPlace bytes = (memory, .error (.memoryAddress 256)) := by
  -- Whichever way the program was made, its size has been asked for there.
  have hfits : program.bytes.length ≤ Memory.capacity := by
    rcases h with ⟨bytes, hbytes⟩ | ⟨source, hsource⟩
    · exact Program.length_of_ofBytes hbytes
    · obtain ⟨bytes, hbytes⟩ := Program.exists_ofBytes_of_parse hsource
      exact Program.length_of_ofBytes hbytes
  refine ⟨⟨loadInPlace_of_le machine hfits, loads_load machine program⟩, ?_, ⟨?_, ?_⟩, ?_, ?_⟩
  · unfold startInPlace
    rw [loadInPlace_of_le initial hfits]
    rfl
  · exact Memory.blank.loadInPlace_of_le hfits
  · unfold Program.disassemble? Memory.load
    rw [if_pos hfits]
    rfl
  · intro earlier after
    have hsecond := loads_load (machine.load earlier) program
    refine ⟨?_, hsecond.stackLimit⟩
    intro address hbehind hinside
    exact (loads_load machine earlier).getElem?_over hsecond hbehind hinside
  · intro bytes hlong
    exact ⟨Program.ofBytes_of_lt hlong, machine.loadInPlace_of_lt hlong,
      fun memory => memory.loadInPlace_of_lt hlong⟩

/-- A text of one byte, loaded into a machine that has pushed: the stack pointer stays where it
    was, and so does the last byte of the program before, with the stack free to grow over it. -/
theorem load_touches_only_program_shorter :
    let earlier : Program := ⟨[0x45, 0, 0x01], by decide⟩
    let machine := ((ofProgram earlier).step .unlimited).machine
    let program : Program := ⟨[0x01], by decide⟩
    Program.parse "1 # halt" = .ok program ∧
      machine.loadInPlace program.bytes = (machine.load program, .ok ()) ∧
      (machine.load program).memory.bytes[2]? = some 0x01 ∧
      (machine.load program).registers.stackPointer = 0xF3 ∧
      (machine.load program).stackLimit.toNat = 1 ∧
      Program.ofBytes (List.replicate 257 0) = .error (.tooLarge 257 256) := by
  intro earlier machine program
  have hparse : Program.parse "1 # halt" = .ok program := by decide +kernel
  obtain ⟨⟨hload, hloads⟩, -, -, -, hrefused⟩ :=
    load_touches_only_program machine program (.inr ⟨_, hparse⟩)
  have hlong : 256 < (List.replicate 257 (0 : UInt8)).length := by
    rw [List.length_replicate]
    decide
  refine ⟨hparse, hload, ?_, ?_, hloads.stackLimit, ?_⟩
  · rw [hloads.behind 2 (by decide)]
    decide +kernel
  · rw [hloads.registers]
    decide +kernel
  · have htooLarge := (hrefused _ hlong).1
    rwa [List.length_replicate] at htooLarge

end Machine

end ByteMachine
