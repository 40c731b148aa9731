import ByteMachine.Proofs.Listing
import ByteMachine.Proofs.Stores
/-!
# Listings and the machine

A listing is made by a walk over the bytes of the program, the machine finds its
instructions one step at a time. The two agree: at the address of a line the machine
decodes what the line shows, and an instruction that does not transfer control leads
it to the address of the next line. This holds for every byte string, also where bytes
are no opcodes and where an operation is cut off by the end of the program or of memory.

## Main statements

- `Machine.pc_of_straight_step`: where a step without a transfer of control leads to.
- `Program.listing_eq_append`: each line of a listing is that of its address, and the
  lines behind it start behind its operation.
- `Program.disassemble_agrees_with_machine`: the agreement.
-/

namespace ByteMachine

open Numeral

/-! ## Decoding and going on -/

namespace Machine

/-- Within memory decoding fails only at a byte that is no opcode or with operands that run
    into the end of memory. -/
theorem fault_of_decode {machine : Machine} {fault : Fault} (h : machine.pc.toNat < 256)
    (hdecode : machine.decode = .error fault) :
    fault = .unknownOpcode (machine.ahead 0) ∨ fault = .memoryAddress 256 := by
  rcases machine.decode_cases h with hunknown | hshort | ⟨instruction, -, hfound⟩
  · rw [hunknown] at hdecode
    cases hdecode
    exact .inl rfl
  · rw [hshort] at hdecode
    cases hdecode
    exact .inr rfl
  · rw [hfound] at hdecode
    cases hdecode

/-- Behind every instruction that neither transfers control nor halts comes the next one. -/
theorem pcAfter_of_straight (machine : Machine) {instruction : Instruction}
    (hcontrol : instruction.category ≠ .control) (hhlt : instruction ≠ .hlt) :
    machine.pcAfter instruction = machine.pc.toNat + instruction.width := by
  cases instruction
  case hlt => exact absurd rfl hhlt
  case call | ret | jmp | jeq | jne | jgt | jlt | jle | jge =>
    exact absurd (by decide) hcontrol
  -- No flags make any of the others jump.
  all_goals rfl

/-- A step that goes straight on stops behind what was decoded before it. -/
theorem pc_of_straight_step {machine next : Machine} {sink out : Sink}
    {instruction : Instruction} (hrunning : machine.running = true)
    (hfound : machine.instruction? = some instruction)
    (hcontrol : instruction.category ≠ .control) (hhlt : instruction ≠ .hlt)
    (hstep : machine.step sink = ⟨next, out, .ok ()⟩) :
    machine.decode = .ok (machine.operation instruction) ∧
      next.pc.toNat = machine.pc.toNat + (machine.operation instruction).width := by
  obtain ⟨other, hexecutes, -, -, rfl⟩ := exists_executes_of_step hstep
  obtain rfl : other = instruction := Option.some.inj (hexecutes.found.symm.trans hfound)
  have hfits := hexecutes.fits
  refine ⟨decode_of_found hfound hfits, ?_⟩
  have hlanding : machine.landing other = machine.pc.toNat + (machine.operation other).width := by
    rw [landing_of_running hrunning]
    exact machine.pcAfter_of_straight hcontrol hhlt
  exact (toNat_landing hfits).trans hlanding

end Machine

/-! ## Lines by their address -/

namespace Program

variable (program : Program)

/-- The line of a listing at an address. -/
def lineOf (address : Nat) : ListingLine where
  address
  bytes := program.shownAt address
  text := (program.lineAt address).2

/-- Each line of a listing is that of its address, and the lines behind it are those from
    the end of its operation on. -/
theorem listingFrom_eq_append {address : Nat} {before rest : List ListingLine}
    {line : ListingLine} (h : program.listingFrom address = before ++ line :: rest) :
    line.address < program.length ∧ line = program.lineOf line.address ∧
      rest = program.listingFrom (line.address + (program.lineAt line.address).1) := by
  induction address using listingFrom.induct program generalizing before with
  | case1 address hlt ih =>
    rw [program.listingFrom_of_lt hlt] at h
    cases before with
    | nil =>
      rw [List.nil_append, List.cons.injEq] at h
      obtain ⟨rfl, rfl⟩ := h
      exact ⟨hlt, rfl, rfl⟩
    | cons first before =>
      rw [List.cons_append, List.cons.injEq] at h
      exact ih h.2
  | case2 address hge =>
    rw [program.listingFrom_of_ge (Nat.not_lt.mp hge)] at h
    simp at h

theorem listing_eq_append {before rest : List ListingLine} {line : ListingLine}
    (h : program.listing = before ++ line :: rest) :
    line.address < program.length ∧ line = program.lineOf line.address ∧
      rest = program.listingFrom (line.address + (program.lineAt line.address).1) :=
  program.listingFrom_eq_append h

/-- The first line from an address on is at that address, unless the program has ended. -/
theorem head_listingFrom (address : Nat) :
    match program.listingFrom address with
    | [] => program.length ≤ address
    | line :: _ => line.address = address := by
  rcases Nat.lt_or_ge address program.length with hlt | hge
  · rw [program.listingFrom_of_lt hlt]
  · rw [program.listingFrom_of_ge hge]
    exact hge

/-- The machine at an address of a program that has just been loaded. -/
def machineAt (address : Nat) : Machine :=
  { Machine.ofProgram program with pc := UInt64.ofNat address }

variable {program} {address : Nat}

theorem toNat_pc_machineAt (h : address < program.length) :
    (program.machineAt address).pc.toNat = address := by
  have hle := program.length_le
  simp only [machineAt, UInt64.toNat_ofNat']
  exact Nat.mod_eq_of_lt (by omega)

/-- A line is made from what the machine decodes at its address. -/
theorem lineAt_eq (h : address < program.length) :
    program.lineAt address =
      match (program.machineAt address).decode with
      | .ok operation => (operation.width, operation.text)
      | .error _ => (1, "DB " ++ markedHex (program.bytes.getD address 0).toNat) := by
  unfold lineAt Machine.decode
  rw [toNat_pc_machineAt h]
  rfl

theorem ahead_machineAt (h : address < program.length) :
    program.bytes[address]? = some ((program.machineAt address).ahead 0) := by
  have hle := program.length_le
  have hbyte : (UInt8.ofNat address).toNat = address := by
    rw [UInt8.toNat_ofNat', Nat.mod_eq_of_lt (by omega)]
  unfold Machine.ahead
  rw [toNat_pc_machineAt h, Nat.add_zero]
  -- Memory is that of the loaded program, in which the program comes first.
  have hcell := Machine.cell_load Machine.initial program (UInt8.ofNat address)
  rw [hbyte, List.getD_eq_getElem?_getD, List.getElem?_eq_getElem h, Option.getD_some] at hcell
  rw [List.getElem?_eq_getElem h]
  exact congrArg some hcell.symm

end Program

/-! ## The agreement -/

/-- What a line shows of an outcome of decoding at its address: an operation with as many of
    its bytes as the program has, or a byte of the program as data. -/
def ListingLine.Reports (line : ListingLine) (program : Program) :
    Except Fault Operation → Prop
  | .ok operation =>
    line.text = operation.text ∧
      line.bytes = (program.bytes.drop line.address).take operation.width
  | .error fault =>
    ∃ byte, program.bytes[line.address]? = some byte ∧
      (fault = .unknownOpcode byte ∨ fault = .memoryAddress 256) ∧
      line.bytes = [byte] ∧
      line.text.toList = ['D', 'B', ' ', '0', 'x'] ++ twoDigits byte.toNat

namespace Program

variable {program : Program} {address : Nat}

theorem reports_of_error {fault : Fault} (h : address < program.length)
    (hdecode : (program.machineAt address).decode = .error fault) :
    (program.lineOf address).Reports program (.error fault) := by
  have hbyte := ahead_machineAt h
  have hline := lineAt_eq h
  rw [hdecode] at hline
  generalize hahead : (program.machineAt address).ahead 0 = byte at hbyte
  refine ⟨byte, hbyte, ?_, ?_, ?_⟩
  · have hlt : (program.machineAt address).pc.toNat < 256 := by
      have hle := program.length_le
      rw [toNat_pc_machineAt h]
      omega
    rw [← hahead]
    exact Machine.fault_of_decode hlt hdecode
  · simp only [lineOf, shownAt, hline]
    obtain ⟨hlt, hget⟩ := List.getElem?_eq_some_iff.mp hbyte
    rw [List.drop_eq_getElem_cons hlt, hget, List.take_succ_cons, List.take_zero]
  · simp only [lineOf, hline, List.getD_eq_getElem?_getD, hbyte, Option.getD_some, markedHex,
      String.toList_append, toList_hex_of_lt byte.toNat_lt]
    rfl

theorem reports_lineOf (h : address < program.length) :
    (program.lineOf address).Reports program (program.machineAt address).decode := by
  cases hdecode : (program.machineAt address).decode with
  | error fault => exact reports_of_error h hdecode
  | ok operation =>
    have hline := lineAt_eq h
    rw [hdecode] at hline
    simp only [ListingLine.Reports, lineOf, shownAt, hline, and_self]

/-- **A listing agrees with the machine.** Its texts are lines such that, with the loaded
    machine at the address of a line, the line reports what the machine decodes there.
    Whatever registers, flags and stack limit the machine is given, an instruction that
    neither transfers control nor halts takes it to the address of the next line, and from
    the last line to the end of the program or behind it. -/
theorem disassemble_agrees_with_machine (program : Program) :
    ∃ lines : List ListingLine,
      List.Forall₂ ListingLine.Shows program.disassemble lines ∧
      ∀ before line rest, lines = before ++ line :: rest →
        line.Reports program
          { Machine.ofProgram program with pc := UInt64.ofNat line.address }.decode ∧
        ∀ (registers : Registers) (flags : Flags) (stackLimit : UInt8) (sink out : Sink)
          (next : Machine) (instruction : Instruction),
          let machine := { Machine.ofProgram program with
            pc := UInt64.ofNat line.address, registers, flags, stackLimit }
          machine.instruction? = some instruction →
          instruction.category ≠ .control → instruction ≠ .hlt →
          machine.step sink = ⟨next, out, .ok ()⟩ →
          match rest with
          | [] => program.length ≤ next.pc.toNat
          | following :: _ => next.pc.toNat = following.address := by
  refine ⟨program.listing, program.shows_disassemble_iff.mpr rfl, ?_⟩
  intro before line rest hlines
  obtain ⟨hlt, hline, hrest⟩ := program.listing_eq_append hlines
  have hpc := toNat_pc_machineAt hlt
  refine ⟨?_, ?_⟩
  · have hreports := reports_lineOf hlt
    rw [← hline] at hreports
    exact hreports
  · intro registers flags stackLimit sink out next instruction machine hfound hcontrol hhlt hstep
    -- Neither decoding nor the place behind an operation depends on what was changed.
    obtain ⟨hdecode, hnext⟩ :=
      Machine.pc_of_straight_step rfl hfound hcontrol hhlt hstep
    have hwidth : (program.lineAt line.address).1 = (machine.operation instruction).width := by
      rw [lineAt_eq hlt, show (program.machineAt line.address).decode = _ from hdecode]
    have hbehind : next.pc.toNat = line.address + (program.lineAt line.address).1 := by
      rw [hnext, hwidth]
      exact congrArg (· + _) hpc
    have hhead := program.head_listingFrom (line.address + (program.lineAt line.address).1)
    rw [← hrest, ← hbehind] at hhead
    cases rest with
    | nil => exact hhead
    | cons following rest => exact hhead.symm

/-- A load without its last two bytes is the last line. The machine takes them for zeros and
    goes on behind them, which is behind the program. -/
theorem disassemble_agrees_with_machine_cut_load :
    let program : Program := ⟨[0x47, 0, 0x82], by decide⟩
    let machine := { Machine.ofProgram program with pc := 2 }
    program.disassemble = ["00: 47 00     PRN R0", "02: 82        LDI R0,0"] ∧
      machine.instruction? = some .ldi ∧
      machine.step .unlimited = ⟨(machine.step .unlimited).machine, .unlimited, .ok ()⟩ ∧
      3 ≤ (machine.step .unlimited).machine.pc.toNat := by
  intro program machine
  have hfound : machine.instruction? = some .ldi := by decide +kernel
  have hstep : machine.step .unlimited =
      ⟨(machine.step .unlimited).machine, .unlimited, .ok ()⟩ :=
    Machine.step_of_clear (by decide +kernel) (by decide +kernel)
  have hlisting : program.listing =
      [⟨0, [0x47, 0], "PRN R0"⟩] ++ ⟨2, [0x82], "LDI R0,0"⟩ :: [] := by decide +kernel
  obtain ⟨lines, hshows, hlines⟩ := disassemble_agrees_with_machine program
  obtain rfl := program.shows_disassemble_iff.mp hshows
  obtain ⟨-, hnext⟩ := hlines _ _ _ hlisting
  refine ⟨by decide +kernel, hfound, hstep, ?_⟩
  exact hnext .initial {} (Machine.limitFor program) .unlimited .unlimited _ .ldi hfound
    (by decide) (by decide) hstep

end Program

end ByteMachine
