import ByteMachine.Machine.Step
import ByteMachine.Proofs.Effects
/-!
# Steps and the instruction set

A step in full: either a check fails, and then the step gives its fault and
changes nothing but the fetched opcode, or the sink refuses the output, or the
machine is the one that the tables of the instruction set describe.

## Main statements

- `step_of_fault`, `step_of_executes`: the two ways of a step.
- `step_eq_after`: a successful step of a running machine follows the tables.
- `step_result`: which fault a step gives, and when it gives none.
-/

namespace ByteMachine

/-- A text that a sink admits is written in full. -/
theorem Sink.written_offer_of_admits {sink : Sink} {text : String}
    (h : sink.admits text = true) : (sink.offer text).written = sink.written ++ text := by
  cases hroom : sink.room with
  | none => exact sink.written_offer_of_room_none hroom text
  | some room =>
    unfold admits at h
    rw [hroom] at h
    -- A text that fits is not cut.
    have hlength : text.toList.length ≤ room := by
      rw [String.length_toList]
      exact of_decide_eq_true h
    unfold offer fitting
    rw [hroom]
    simp only [List.take_of_length_le hlength, String.ofList_toList]

/-- Nothing to print is always taken. -/
theorem Sink.admits_empty (sink : Sink) : sink.admits "" = true := by
  unfold admits
  cases sink.room with
  | none => rfl
  | some room => exact decide_eq_true (Nat.zero_le room)

/-- To print nothing leaves the sink as it is. -/
theorem Sink.offer_empty (sink : Sink) : sink.offer "" = sink := by
  obtain ⟨_ | room, refusal, written⟩ := sink
  · simp [offer, fitting]
  · simp [offer, fitting]

namespace Machine

/-! ## Decoding at the program counter -/

theorem read_ahead (machine : Machine) (offset : Nat) (h : machine.pc.toNat + offset < 256) :
    machine.memory.read (machine.pc.toNat + offset) = .ok (machine.ahead offset) :=
  machine.memory.read_ofNat h

theorem read_ahead_of_ge (machine : Machine) {offset : Nat}
    (h : 256 ≤ machine.pc.toNat + offset) :
    machine.memory.read (machine.pc.toNat + offset) =
      .error (.memoryAddress (machine.pc.toNat + offset)) :=
  machine.memory.read_of_ge h

theorem decode_of_unknown (machine : Machine) (h : machine.pc.toNat < 256)
    (hunknown : Instruction.ofOpcode? (machine.ahead 0) = none) :
    machine.decode = .error (.unknownOpcode (machine.ahead 0)) := by
  have hread := machine.read_ahead 0 h
  rw [Nat.add_zero] at hread
  unfold decode Operation.decode
  rw [hread, ok_bind, hunknown]
  rfl

/-- Operands that begin in the last cell or behind it run into the end of memory,
    always at its first missing address. -/
theorem decode_of_short (machine : Machine) {instruction : Instruction}
    (h : machine.pc.toNat < 256)
    (hknown : Instruction.ofOpcode? (machine.ahead 0) = some instruction)
    (hshort : 255 < machine.pc.toNat + instruction.operandCount) :
    machine.decode = .error (.memoryAddress 256) := by
  have hread := machine.read_ahead 0 h
  rw [Nat.add_zero] at hread
  unfold decode Operation.decode
  rw [hread, ok_bind, hknown]
  have htwo := instruction.operandCount_le_two
  -- Either the opcode is in the last cell, or it is before it and has two operands.
  by_cases hlast : machine.pc.toNat = 255
  · have hfirst : machine.memory.read (machine.pc.toNat + 1) = .error (.memoryAddress 256) := by
      rw [machine.read_ahead_of_ge (by omega), hlast]
    simp only [show 0 < instruction.operandCount by omega, if_true, hfirst]
    rfl
  · have hcount : machine.pc.toNat = 254 ∧ instruction.operandCount = 2 := by omega
    have hfirst := machine.read_ahead 1 (by omega)
    have hsecond : machine.memory.read (machine.pc.toNat + 2) = .error (.memoryAddress 256) := by
      rw [machine.read_ahead_of_ge (by omega), hcount.1]
    simp only [hcount.2, Nat.zero_lt_two, Nat.one_lt_two, if_true, hfirst, hsecond, ok_bind]
    rfl

theorem decode_of_fits (machine : Machine) {instruction : Instruction}
    (hknown : Instruction.ofOpcode? (machine.ahead 0) = some instruction)
    (hfits : machine.pc.toNat + instruction.operandCount < 256) :
    machine.decode = .ok (machine.operation instruction) := by
  have hread := machine.read_ahead 0 (by omega)
  rw [Nat.add_zero] at hread
  unfold decode Operation.decode
  rw [hread, ok_bind, hknown]
  have htwo := instruction.operandCount_le_two
  obtain hcount | hcount | hcount : instruction.operandCount = 0 ∨
      instruction.operandCount = 1 ∨ instruction.operandCount = 2 := by omega
  · simp only [operation, hcount, Nat.lt_irrefl, Nat.not_lt_zero, if_false]
    rfl
  · have hfirst := machine.read_ahead 1 (by omega)
    simp only [operation, hcount, Nat.zero_lt_one, Nat.lt_irrefl, if_true, if_false, hfirst]
    rfl
  · have hfirst := machine.read_ahead 1 (by omega)
    have hsecond := machine.read_ahead 2 (by omega)
    simp only [operation, hcount, Nat.zero_lt_two, Nat.one_lt_two, if_true, hfirst, hsecond]
    rfl

/-- Decoding within memory finds a byte that is no opcode, runs into the end of memory, or
    gives the operation of an instruction. -/
theorem decode_cases (machine : Machine) (h : machine.pc.toNat < 256) :
    machine.decode = .error (.unknownOpcode (machine.ahead 0)) ∨
    machine.decode = .error (.memoryAddress 256) ∨
    ∃ instruction : Instruction, machine.pc.toNat + instruction.operandCount < 256 ∧
      machine.decode = .ok (machine.operation instruction) := by
  cases hknown : Instruction.ofOpcode? (machine.ahead 0) with
  | none => exact .inl (machine.decode_of_unknown h hknown)
  | some instruction =>
    rcases Nat.lt_or_ge (machine.pc.toNat + instruction.operandCount) 256 with hfits | hshort
    · exact .inr (.inr ⟨instruction, hfits, machine.decode_of_fits hknown hfits⟩)
    · exact .inr (.inl (machine.decode_of_short h hknown hshort))

/-! ## The fetched machine -/

/-- The machine with the opcode at the program counter fetched; beyond memory there
    is none. -/
def fetched (machine : Machine) : Machine :=
  { machine with ir := if machine.pc.toNat < 256 then machine.ahead 0 else machine.ir }

theorem fetched_of_lt (machine : Machine) (h : machine.pc.toNat < 256) :
    machine.fetched = { machine with ir := machine.ahead 0 } := by
  unfold fetched
  rw [if_pos h]

theorem fetched_of_ge (machine : Machine) (h : 256 ≤ machine.pc.toNat) :
    machine.fetched = machine := by
  unfold fetched
  rw [if_neg (Nat.not_lt.mpr h)]

/-- The effect of an instruction does not depend on what was fetched before. -/
theorem effect_fetched (machine : Machine) (instruction : Instruction) (opcode : UInt8)
    (hfits : machine.pc.toNat + instruction.operandCount < 256) :
    ({ machine with ir := opcode } : Machine).effect (machine.operation instruction) =
      verdict (machine.refusal? instruction)
        ⟨{ machine.changed instruction with ir := opcode }, machine.landing instruction,
          machine.outputAfter instruction⟩ := by
  have heffect := effect_operation { machine with ir := opcode } instruction hfits
  -- Neither the checks nor the tables look at the fetched opcode.
  have hrefusal : ({ machine with ir := opcode } : Machine).refusal? instruction =
      machine.refusal? instruction := by
    cases instruction <;> rfl
  have hchanged : ({ machine with ir := opcode } : Machine).changed instruction =
      { machine.changed instruction with ir := opcode } := by
    cases instruction <;> rfl
  rw [hrefusal, hchanged] at heffect
  exact heffect

/-! ## Where a step goes on -/

/-- The address behind an instruction in memory is at most the first one behind memory, and
    any other that the machine may go on at is the one where it is, or a byte. -/
theorem landing_le {machine : Machine} {instruction : Instruction}
    (hfits : machine.pc.toNat + instruction.operandCount < 256) :
    machine.landing instruction ≤ 256 := by
  have hbehind : machine.pc.toNat + instruction.width ≤ 256 := by
    unfold Instruction.width
    omega
  have hbyte (byte : UInt8) : byte.toNat ≤ 256 := Nat.le_of_lt byte.toNat_lt
  unfold landing
  split
  · omega
  unfold pcAfter
  split
  · omega
  · exact hbyte _
  · exact hbyte _
  · split
    · exact hbyte _
    · exact hbehind

/-- The program counter has room for every address that the machine may go on at. -/
theorem toNat_landing {machine : Machine} {instruction : Instruction}
    (hfits : machine.pc.toNat + instruction.operandCount < 256) :
    (UInt64.ofNat (machine.landing instruction)).toNat = machine.landing instruction :=
  UInt64.toNat_ofNat_of_lt' (Nat.lt_of_le_of_lt (landing_le hfits) (by decide))

/-! ## The two ways of a step -/

theorem fetch_of_lt (machine : Machine) (h : machine.pc.toNat < 256) :
    machine.fetch = .ok (machine.ahead 0) :=
  machine.read_ahead 0 h

/-- A step whose operation cannot be decoded. -/
theorem step_of_decode_error {machine : Machine} {fault : Fault} (h : machine.pc.toNat < 256)
    (hdecode : machine.decode = .error fault) (sink : Sink) :
    machine.step sink = ⟨machine.fetched, sink, .error fault⟩ := by
  have hsame : ({ machine with ir := machine.ahead 0 } : Machine).decode = .error fault := hdecode
  unfold step
  simp only [machine.fetch_of_lt h, hsame, machine.fetched_of_lt h]

/-- Decoding leads to an instruction that has all its operands. -/
theorem decode_of_found {machine : Machine} {instruction : Instruction}
    (hfound : machine.instruction? = some instruction)
    (hfits : machine.pc.toNat + instruction.operandCount < 256) :
    machine.decode = .ok (machine.operation instruction) := by
  obtain ⟨_, hopcode⟩ := instruction?_eq_some_iff.mp hfound
  exact machine.decode_of_fits (Instruction.ofOpcode?_eq_some_iff.mpr hopcode) hfits

/-- An instruction that a check refuses is not carried out. -/
theorem step_of_refusal {machine : Machine} {instruction : Instruction} {fault : Fault}
    (hfound : machine.instruction? = some instruction)
    (hfits : machine.pc.toNat + instruction.operandCount < 256)
    (hrefusal : machine.refusal? instruction = some fault) (sink : Sink) :
    machine.step sink = ⟨machine.fetched, sink, .error fault⟩ := by
  have hlt : machine.pc.toNat < 256 := by omega
  have hdecode : ({ machine with ir := machine.ahead 0 } : Machine).decode =
      .ok (machine.operation instruction) := decode_of_found hfound hfits
  have heffect := machine.effect_fetched instruction (machine.ahead 0) hfits
  rw [hrefusal] at heffect
  unfold step execute
  simp only [machine.fetch_of_lt hlt, hdecode, heffect, machine.fetched_of_lt hlt]
  rfl

/-- An instruction that passes its checks is carried out as soon as the sink takes its
    output. -/
theorem step_of_executes {machine : Machine} {instruction : Instruction}
    (h : machine.Executes instruction) (sink : Sink) :
    machine.step sink =
      if sink.admits (machine.outputAfter instruction) then
        ⟨{ machine.after instruction with pc := UInt64.ofNat (machine.landing instruction) },
          sink.offer (machine.outputAfter instruction), .ok ()⟩
      else
        ⟨machine.fetched, sink.offer (machine.outputAfter instruction),
          .error (.output sink.refusal.reason)⟩ := by
  have hfits := h.fits
  have hlt : machine.pc.toNat < 256 := by omega
  have hdecode : ({ machine with ir := machine.ahead 0 } : Machine).decode =
      .ok (machine.operation instruction) := decode_of_found h.found hfits
  have heffect := machine.effect_fetched instruction (machine.ahead 0) hfits
  rw [h.passes] at heffect
  unfold step execute
  simp only [machine.fetch_of_lt hlt, hdecode, heffect, machine.fetched_of_lt hlt, verdict]
  cases sink.admits (machine.outputAfter instruction) with
  | true => rfl
  | false => rfl

/-- A step with a fault gives this fault and leaves the machine as fetched. -/
theorem step_of_fault {machine : Machine} {fault : Fault} (h : machine.fault? = some fault)
    (sink : Sink) : machine.step sink = ⟨machine.fetched, sink, .error fault⟩ := by
  unfold fault? at h
  -- One stage after the other, each with the fault that it gives.
  split at h
  · next hout =>
    cases h
    rw [machine.fetched_of_ge hout]
    unfold step fetch
    rw [machine.memory.read_of_ge hout]
  next hin =>
  have hlt : machine.pc.toNat < 256 := by omega
  split at h
  · next hunknown =>
    cases h
    exact step_of_decode_error hlt (machine.decode_of_unknown hlt hunknown) sink
  next instruction hknown =>
  split at h
  · next hshort =>
    cases h
    exact step_of_decode_error hlt (machine.decode_of_short hlt hknown hshort) sink
  next hfits =>
  -- What is left are the checks of the instruction.
  have hopcode := Instruction.ofOpcode?_eq_some_iff.mp hknown
  exact step_of_refusal (instruction?_eq_some_iff.mpr ⟨hlt, hopcode⟩) (by omega) h sink

/-- Into a sink without a limit, a step gives the verdict of all its checks. -/
theorem result_of_room_none (machine : Machine) {sink : Sink} (hroom : sink.room = none) :
    (machine.step sink).result = verdict machine.fault? () := by
  cases hfault : machine.fault? with
  | some fault =>
    rw [step_of_fault hfault]
    rfl
  | none =>
    obtain ⟨instruction, hexecutes⟩ := fault?_eq_none_iff.mp hfault
    rw [step_of_executes hexecutes, if_pos (Sink.admits_of_room_none hroom _)]
    rfl

/-- An instruction that prints nothing gives the verdict of its checks into any sink. -/
theorem result_of_silent {machine : Machine} {instruction : Instruction}
    (hfound : machine.instruction? = some instruction)
    (hfits : machine.pc.toNat + instruction.operandCount < 256)
    (hsilent : machine.outputAfter instruction = "") (sink : Sink) :
    (machine.step sink).result = verdict (machine.refusal? instruction) () := by
  cases hrefusal : machine.refusal? instruction with
  | some fault =>
    rw [step_of_refusal hfound hfits hrefusal]
    rfl
  | none =>
    have hadmits : sink.admits (machine.outputAfter instruction) = true := by
      rw [hsilent]
      exact sink.admits_empty
    rw [step_of_executes ⟨hfound, hfits, hrefusal⟩, if_pos hadmits]
    rfl

/-! ## Successful steps -/

/-- A step succeeds only by carrying out an instruction whose output the sink takes. -/
theorem executes_of_step_ok {machine : Machine} {sink : Sink}
    (h : (machine.step sink).result = .ok ()) :
    ∃ instruction, machine.Executes instruction ∧
      sink.admits (machine.outputAfter instruction) = true := by
  cases hfault : machine.fault? with
  | some fault =>
    rw [step_of_fault hfault] at h
    cases h
  | none =>
    obtain ⟨instruction, hexecutes⟩ := fault?_eq_none_iff.mp hfault
    refine ⟨instruction, hexecutes, ?_⟩
    rw [step_of_executes hexecutes] at h
    cases hadmits : sink.admits (machine.outputAfter instruction) with
    | true => rfl
    | false =>
      rw [hadmits] at h
      cases h

/-- A failed step has only fetched, and either gives the fault of its checks or the refusal of
    the sink. -/
theorem reply_of_step_error {machine after : Machine} {sink out : Sink} {fault : Fault}
    (h : machine.step sink = ⟨after, out, .error fault⟩) :
    after = machine.fetched ∧
      ((machine.fault? = some fault ∧ out = sink) ∨
        machine.fault? = none ∧ fault = .output sink.refusal.reason) := by
  cases hfault : machine.fault? with
  | some reason =>
    rw [step_of_fault hfault] at h
    cases h
    exact ⟨rfl, .inl ⟨rfl, rfl⟩⟩
  | none =>
    obtain ⟨instruction, hexecutes⟩ := fault?_eq_none_iff.mp hfault
    rw [step_of_executes hexecutes] at h
    split at h
    · cases h
    · cases h
      exact ⟨rfl, .inr ⟨rfl, rfl⟩⟩

/-- A running machine goes on where the tables say. -/
theorem landing_of_running {machine : Machine} (h : machine.running = true)
    (instruction : Instruction) : machine.landing instruction = machine.pcAfter instruction := by
  unfold landing
  rw [h]
  exact if_neg (fun hstays => Bool.noConfusion hstays.1)

/-- **A step of a running machine follows the instruction set**: if it succeeds, the
    bytes at the program counter are an instruction with its operands, the machine is
    the one that the tables describe, what the tables take from the arithmetic unit is
    a result of it, and the output of the tables has been printed. -/
theorem step_eq_after {machine : Machine} {sink : Sink} (hrunning : machine.running = true)
    (hok : (machine.step sink).result = .ok ()) :
    ∃ instruction : Instruction,
      instruction.opcode = machine.ahead 0 ∧
      machine.pc.toNat + instruction.width ≤ 256 ∧
      (machine.step sink).machine = machine.after instruction ∧
      (∀ op, instruction.aluOp? = some op →
        op.apply machine.operandA (machine.operandB instruction) machine.registers machine.flags =
          .ok ((machine.after instruction).registers, (machine.after instruction).flags)) ∧
      (machine.step sink).sink.written = sink.written ++ machine.outputAfter instruction := by
  obtain ⟨instruction, hexecutes, hadmits⟩ := executes_of_step_ok hok
  obtain ⟨_, hopcode⟩ := instruction?_eq_some_iff.mp hexecutes.found
  have hfits := hexecutes.fits
  have hwidth : instruction.width = 1 + instruction.operandCount := rfl
  refine ⟨instruction, hopcode, by omega, ?_, ?_, ?_⟩
  · rw [step_of_executes hexecutes, if_pos hadmits, landing_of_running hrunning]
    rfl
  · intro op hop
    -- All checks have passed, so the unit has a result, and the tables are made of it.
    rw [machine.apply_operands hop, hexecutes.passes]
    have hregisters : (machine.after instruction).registers = (machine.aluAfter instruction).1 := by
      cases instruction <;> cases hop <;> rfl
    rw [hregisters]
    rfl
  · rw [step_of_executes hexecutes, if_pos hadmits]
    exact sink.written_offer_of_admits hadmits

/-- Pushing the stack pointer stores the value that it had before. -/
theorem step_eq_after_push_pointer :
    let machine := ofProgram ⟨[0x45, 7], by decide⟩
    (machine.running = true ∧ (machine.step .unlimited).result = .ok ()) ∧
      ∃ instruction : Instruction,
        instruction.opcode = machine.ahead 0 ∧
        machine.pc.toNat + instruction.width ≤ 256 ∧
        (machine.step .unlimited).machine = machine.after instruction ∧
        (∀ op, instruction.aluOp? = some op →
          op.apply machine.operandA (machine.operandB instruction) machine.registers
              machine.flags =
            .ok ((machine.after instruction).registers, (machine.after instruction).flags)) ∧
        (machine.step .unlimited).sink.written =
          Sink.unlimited.written ++ machine.outputAfter instruction :=
  have hclear : (ofProgram ⟨[0x45, 7], by decide⟩).fault? = none := by decide +kernel
  have hok : ((ofProgram ⟨[0x45, 7], by decide⟩).step .unlimited).result = .ok () := by
    rw [result_of_room_none _ rfl, hclear]
    rfl
  ⟨⟨rfl, hok⟩, step_eq_after rfl hok⟩

/-! ## Faults of a step -/

/-- Instructions that use memory for data check its address beforehand or cannot miss it. -/
theorem refusal?_ne_memoryAddress (machine : Machine) {instruction : Instruction}
    (h : instruction ∈ [.ld, .st, .push, .pop, .ret]) (address : Nat) :
    machine.refusal? instruction ≠ some (.memoryAddress address) := by
  intro hrefusal
  -- The fault would be that of one of the checks, and none of them is about memory.
  obtain ⟨check, hmem, hfault⟩ := Check.exists_mem_of_firstFault hrefusal
  simp only [List.mem_cons, List.not_mem_nil, or_false] at h
  obtain rfl | rfl | rfl | rfl | rfl := h <;>
    simp only [checks, List.mem_cons, List.not_mem_nil, or_false] at hmem
  case inl | inr.inl =>
    obtain rfl | rfl := hmem <;> cases hfault
  case inr.inr.inl | inr.inr.inr.inl =>
    obtain rfl | rfl := hmem <;> cases hfault
  case inr.inr.inr.inr =>
    cases hmem
    cases hfault

/-- **The fault of a step** into a sink without a limit: the step fails exactly with the
    first fault of `fault?`, and succeeds where there is none. Beyond fetching and
    decoding, the instructions that move data never miss memory. -/
theorem step_result (machine : Machine) {sink : Sink} (hroom : sink.room = none) :
    (machine.step sink).result = verdict machine.fault? () ∧
      ∀ instruction ∈ [Instruction.ld, .st, .push, .pop, .ret],
        machine.instruction? = some instruction →
        machine.pc.toNat + instruction.operandCount < 256 →
        ∀ address, (machine.step sink).result ≠ .error (.memoryAddress address) := by
  have hresult := machine.result_of_room_none hroom
  refine ⟨hresult, ?_⟩
  intro instruction hdata hfound hfits address heq
  rw [hresult, fault?_of_fits hfound hfits] at heq
  exact machine.refusal?_ne_memoryAddress hdata address (verdict_eq_error_iff.mp heq)

/-- A call right before the end of memory has no address to return to, and that counts
    before the missing room on the stack. -/
theorem step_result_last_call :
    Sink.unlimited.room = none ∧
    let machine : Machine :=
      { initial with pc := 254, memory := Memory.blank.setCell 254 0x50, stackLimit := 255 }
    (machine.step .unlimited).result = verdict machine.fault? () ∧
      ∀ instruction ∈ [Instruction.ld, .st, .push, .pop, .ret],
        machine.instruction? = some instruction →
        machine.pc.toNat + instruction.operandCount < 256 →
        ∀ address, (machine.step .unlimited).result ≠ .error (.memoryAddress address) :=
  ⟨rfl, step_result _ rfl⟩

end Machine

end ByteMachine
