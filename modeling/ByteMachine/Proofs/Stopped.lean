import ByteMachine.Proofs.Halts
/-!
# Steps of a stopped machine

A machine that does not run can still be made to step. Whether it runs is not asked by any
check and not by any table but two: whether it runs afterwards, and, for the simple
instructions, where it goes on. So the step is the same as that of the running machine, down
to the fault and the output, but for the place where it ends. A simple instruction leads
behind itself on a running machine and nowhere on a stopped one.

## Main statements

- `step_withRunning`: the step of a machine that is started or stopped right before it.
- `running_decides_where_simple_goes`: where the two steps end, and when that is the same.
-/

namespace ByteMachine.Machine

/-- The machine, started or stopped from outside. -/
def withRunning (machine : Machine) (running : Bool) : Machine :=
  { machine with running }

section Started

variable (machine : Machine) (running : Bool) (sink : Sink)

/-! ## What is not asked -/

theorem fault?_withRunning : (machine.withRunning running).fault? = machine.fault? := rfl

theorem fetched_withRunning :
    (machine.withRunning running).fetched = machine.fetched.withRunning running := rfl

theorem outputAfter_withRunning (instruction : Instruction) :
    (machine.withRunning running).outputAfter instruction = machine.outputAfter instruction := rfl

/-- The tables have the same for both machines, but for whether they run. -/
theorem after_withRunning (instruction : Instruction) :
    (machine.withRunning running).after instruction =
      (machine.after instruction).withRunning
        ((machine.withRunning running).runningAfter instruction) := rfl

theorem pcAfter_withRunning (instruction : Instruction) :
    (machine.withRunning running).pcAfter instruction = machine.pcAfter instruction := rfl

variable {machine} in
/-- Both machines carry out the same instruction. -/
theorem Executes.withRunning {instruction : Instruction} (h : machine.Executes instruction) :
    (machine.withRunning running).Executes instruction :=
  ⟨h.found, h.fits, h.passes⟩

/-! ## Both steps side by side -/

/-- **The step of a machine that has been started or stopped** has the same result and output,
    and leaves the same machine but for where it stands and whether it runs. A step that fails
    makes no difference in where it stands either. -/
theorem step_withRunning :
    ((machine.withRunning running).step sink).result = (machine.step sink).result ∧
    ((machine.withRunning running).step sink).sink = (machine.step sink).sink ∧
    ((machine.withRunning running).step sink).machine =
      { (machine.step sink).machine with
        running := ((machine.withRunning running).step sink).machine.running
        pc := ((machine.withRunning running).step sink).machine.pc } ∧
    ∀ fault, (machine.step sink).result = .error fault →
      ((machine.withRunning running).step sink).machine.pc = (machine.step sink).machine.pc := by
  cases hfault : machine.fault? with
  | some fault =>
    rw [step_of_fault hfault, step_of_fault ((machine.fault?_withRunning running).trans hfault),
      fetched_withRunning]
    exact ⟨rfl, rfl, rfl, fun _ _ => rfl⟩
  | none =>
    obtain ⟨instruction, hexecutes⟩ := fault?_eq_none_iff.mp hfault
    rw [step_of_executes hexecutes, step_of_executes (hexecutes.withRunning running),
      outputAfter_withRunning, after_withRunning, fetched_withRunning]
    cases sink.admits (machine.outputAfter instruction) with
    | true =>
      refine ⟨rfl, rfl, rfl, ?_⟩
      intro fault h
      cases h
    | false => exact ⟨rfl, rfl, rfl, fun _ _ => rfl⟩

end Started

/-! ## Where a step ends -/

variable {machine : Machine} {sink : Sink}

/-- Where the machine goes on after an instruction, with what the simple ones leave to the
    machine written out. -/
theorem landing_eq (machine : Machine) (instruction : Instruction) :
    machine.landing instruction =
      if instruction.category = .simple then
        machine.pc.toNat +
          if machine.running = true ∧ instruction ≠ .hlt then instruction.width else 0
      else machine.pcAfter instruction := by
  by_cases hsimple : instruction.category = .simple
  · rw [landing_of_simple machine hsimple, if_pos hsimple]
    by_cases hhlt : instruction = .hlt
    · simp [hhlt, runningAfter]
    · rw [machine.runningAfter_of_ne_hlt hhlt]
      cases machine.running <;> simp [hhlt]
  · rw [if_neg hsimple]
    exact if_neg (fun hstays => hsimple hstays.2)

/-- A step that was made ends where its instruction leads. -/
theorem pc_of_step_ok (h : (machine.step sink).result = .ok ()) :
    ∃ instruction, machine.Executes instruction ∧
      (machine.step sink).machine.pc.toNat = machine.landing instruction := by
  obtain ⟨instruction, hexecutes, -, -, hnext⟩ := exists_executes_of_step (step_eq_of_ok h)
  refine ⟨instruction, hexecutes, ?_⟩
  rw [hnext]
  exact toNat_landing hexecutes.fits

/-- **Whether a machine runs decides only where its simple instructions lead.** A step of a
    machine that has been started or stopped right before it has the same result and the same
    output, and it leaves the same memory, registers, flags, fetched opcode, limit and count.
    If it fails, then neither machine has moved. If it succeeds, then both have moved to the
    same address exactly if both run or both do not, or the instruction is HLT or is not a
    simple one: those lead where the tables have it, but a simple instruction leads behind
    itself only if the machine runs and is not halted by it. -/
theorem running_decides_where_simple_goes (machine : Machine) (running : Bool) (sink : Sink) :
    let here := machine.step sink
    let there := (machine.withRunning running).step sink
    there.result = here.result ∧ there.sink = here.sink ∧
    there.machine =
      { here.machine with running := there.machine.running, pc := there.machine.pc } ∧
    (∀ fault, here.result = .error fault → there.machine.pc = here.machine.pc) ∧
    (here.result = .ok () → ∃ instruction, machine.instruction? = some instruction ∧
      (there.machine.pc = here.machine.pc ↔
        running = machine.running ∨ instruction.category ≠ .simple ∨ instruction = .hlt) ∧
      here.machine.pc.toNat =
        if instruction.category = .simple then
          machine.pc.toNat +
            if machine.running = true ∧ instruction ≠ .hlt then instruction.width else 0
        else machine.pcAfter instruction) := by
  intro here there
  obtain ⟨hresult, hsink, hmachine, herror⟩ := machine.step_withRunning running sink
  refine ⟨hresult, hsink, hmachine, herror, ?_⟩
  intro hok
  obtain ⟨instruction, hexecutes, hhere⟩ := pc_of_step_ok hok
  obtain ⟨other, hother, hthere⟩ := pc_of_step_ok (hresult.trans hok)
  obtain rfl : other = instruction :=
    Option.some.inj (hother.found.symm.trans (hexecutes.withRunning running).found)
  rw [landing_eq] at hhere hthere
  refine ⟨other, hexecutes.found, ?_, hhere⟩
  rw [← UInt64.toNat_inj, hhere, hthere]
  have hwidth : 0 < other.width := by
    unfold Instruction.width
    omega
  by_cases hsimple : other.category = .simple
  · by_cases hhlt : other = .hlt
    · subst hhlt
      simp [hsimple, withRunning]
    · -- Two simple steps end at one address only if both or none of them have moved.
      cases hrunning : machine.running <;> cases running <;>
        simp [hsimple, hhlt, withRunning] <;> omega
  · simp [hsimple, pcAfter_withRunning]

/-- A machine that HLT has stopped stays on the NOP that it is made to stand at, where it would
    have gone on to the next address while it was running. -/
theorem stopped_machine_stays_on_nop :
    let halted : Machine :=
      { ((ofProgram ⟨[0x01, 0x00], by decide⟩).step .unlimited).machine with pc := 1 }
    halted.running = false ∧ halted.instruction? = some .nop ∧
    (halted.step .unlimited).result = .ok () ∧
    ((halted.withRunning true).step .unlimited).result = .ok () ∧
    (halted.step .unlimited).machine.pc = 1 ∧
    ((halted.withRunning true).step .unlimited).machine.pc = 2 := by
  intro halted
  have hclear : halted.fault? = none := by decide +kernel
  have hok : (halted.step .unlimited).result = .ok () := by
    rw [result_of_room_none halted rfl, hclear]
    rfl
  have hrunning := (halted.step_withRunning true .unlimited).1
  exact ⟨by decide +kernel, by decide +kernel, hok, hrunning.trans hok, by decide +kernel,
    by decide +kernel⟩

end ByteMachine.Machine
