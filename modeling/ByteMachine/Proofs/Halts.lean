import ByteMachine.Proofs.Offers
import ByteMachine.Proofs.Runs
/-!
# What a run leaves behind

A run that returns says why. From the reason one can tell what the last step was, where the
machine stands and what it has printed last, and whatever the reason is, the machine is
stopped, has counted its steps and holds what the last successful step has left. To run it
once more does nothing.

## Main statements

- `eq_of_halting_step`: the only step that stops a running machine is HLT.
- `cycles_of_steps`: each successful step is counted.
- `state_after_run`: what holds of a machine when its run has returned.
-/

namespace ByteMachine.Machine

variable {machine next later final : Machine} {sink out rest : Sink}
  {history : List Transition} {halt : Halt}

/-! ## Steps that halt, and steps that count -/

theorem runningAfter_of_ne_hlt (machine : Machine) {instruction : Instruction}
    (h : instruction ≠ .hlt) : machine.runningAfter instruction = machine.running := by
  cases instruction
  case hlt => exact absurd rfl h
  all_goals rfl

/-- A step that stops a running machine is HLT, which changes nothing but the fetched opcode
    and the count. -/
theorem eq_of_halting_step (hstep : machine.step sink = ⟨next, out, .ok ()⟩)
    (hrunning : machine.running = true) (hstill : next.running = false) :
    machine.instruction? = some .hlt ∧
      next = { machine with
        ir := Instruction.hlt.opcode, running := false, cycles := machine.cycles + 1 } := by
  obtain ⟨instruction, hexecutes, -, -, rfl⟩ := exists_executes_of_step hstep
  have hhlt : instruction = .hlt := by
    by_contra hne
    have hkept := machine.runningAfter_of_ne_hlt hne
    rw [hrunning] at hkept
    exact Bool.false_ne_true (hstill.symm.trans hkept)
  subst hhlt
  obtain ⟨-, hopcode⟩ := instruction?_eq_some_iff.mp hexecutes.found
  refine ⟨hexecutes.found, ?_⟩
  have hstays : UInt64.ofNat (machine.landing .hlt) = machine.pc := by
    rw [landing_of_running hrunning]
    exact UInt64.ofNat_toNat
  rw [hstays, hopcode]
  rfl

theorem cycles_of_steps (hsteps : Steps machine sink history later rest) :
    later.cycles = machine.cycles + UInt64.ofNat history.length := by
  induction hsteps with
  | refl => exact (UInt64.add_zero _).symm
  | snoc _ hstep ih =>
    obtain ⟨instruction, -, -, -, rfl⟩ := exists_executes_of_step hstep
    rw [List.length_append, List.length_singleton, UInt64.ofNat_add, ← UInt64.add_assoc, ← ih]
    rfl

/-- A history at the end of which a machine has stopped that was running before ends in HLT. -/
theorem exists_hlt_of_steps (hsteps : Steps machine sink history later rest)
    (hbefore : ∀ transition ∈ history, transition.before.running = true)
    (hrunning : machine.running = true) (hstill : later.running = false) :
    ∃ earlier last, history = earlier ++ [last] ∧
      last.before.instruction? = some .hlt ∧ later.instruction? = some .hlt ∧
      later.ir = Instruction.hlt.opcode := by
  cases hsteps with
  | refl =>
    rw [hrunning] at hstill
    cases hstill
  | snoc hsteps hstep =>
    have hlast := hbefore _ (List.mem_append_right _ (List.mem_singleton_self _))
    obtain ⟨hhlt, rfl⟩ := eq_of_halting_step hstep hlast hstill
    exact ⟨_, _, rfl, hhlt, hhlt, rfl⟩

/-! ## Reasons -/

/-- What the reason of a run that has returned tells about the steps of its history, which
    lead to `later` and `rest`, and about what the run leaves behind, `final` and `out`. -/
def Explains (history : List Transition) (later : Machine) (rest : Sink) (final : Machine)
    (out : Sink) : Halt → Prop
  | .halted =>
    (∃ earlier last, history = earlier ++ [last] ∧ last.before.instruction? = some .hlt) ∧
      final = later ∧ out = rest ∧ final.pc.toNat < 256 ∧
      final.ahead 0 = Instruction.hlt.opcode ∧ final.ir = Instruction.hlt.opcode
  | .unknownOpcode opcode pc =>
    (later.step rest).result = .error (.unknownOpcode opcode) ∧
      pc = final.pc.toNat ∧ pc < 256 ∧ final.ahead 0 = opcode ∧ final.ir = opcode ∧
      (∀ instruction : Instruction, instruction.opcode ≠ opcode) ∧
      out.written = rest.written ++ (final.trace.text ++ "\n")
  | .fault fault =>
    (∀ opcode, fault ≠ .unknownOpcode opcode) ∧
      (∀ instruction, fault ≠ .unsupported instruction) ∧
      ((later.step rest).result = .error fault ∨
        ∃ opcode, (later.step rest).result = .error (.unknownOpcode opcode) ∧
          rest.admits (final.trace.text ++ "\n") = false ∧
          fault = .output rest.refusal.reason)

theorem Ends.explains (hends : Ends later rest final out halt)
    (hsteps : Steps machine sink history later rest)
    (hbefore : ∀ transition ∈ history, transition.before.running = true)
    (hrunning : machine.running = true) : Explains history later rest final out halt := by
  cases hends with
  | halted hstill =>
    obtain ⟨earlier, last, hhistory, hhlt, hhere, hir⟩ :=
      exists_hlt_of_steps hsteps hbefore hrunning hstill
    obtain ⟨hlt, hopcode⟩ := instruction?_eq_some_iff.mp hhere
    exact ⟨⟨earlier, last, hhistory, hhlt⟩, rfl, rfl, hlt, hopcode.symm, hir⟩
  | @unknown opcode _ hfault =>
    obtain ⟨hlt, hahead, hunknown⟩ := fault?_eq_unknownOpcode_iff.mp hfault
    have hresult : (later.step rest).result = .error (.unknownOpcode opcode) := by
      rw [step_of_fault hfault]
    split
    · next hfits =>
      refine ⟨hresult, rfl, hlt, hahead, ?_, ?_, Sink.written_offer_of_admits hfits⟩
      · rw [later.fetched_of_lt hlt]
        exact hahead
      · intro instruction hopcode
        rw [← hopcode, Instruction.ofOpcode?_opcode] at hunknown
        cases hunknown
    · next hrefused =>
      exact ⟨by simp, by simp, .inr ⟨opcode, hresult, Bool.eq_false_iff.mpr hrefused, rfl⟩⟩
  | @failed _ fault _ hstep hknown =>
    refine ⟨hknown, ?_, .inl (by rw [hstep])⟩
    rintro instruction rfl
    rcases (reply_of_step_error hstep).2 with ⟨hfault, -⟩ | ⟨-, houtput⟩
    · exact fault?_ne_unsupported instruction hfault
    · cases houtput

/-- **What a run guarantees when it returns.** A running machine has made successful steps,
    running before each of them. It is stopped now, the count has grown by the number of these
    steps, and memory, registers, flags and program counter are those after the last one. The
    reason explains the end: HLT was the last step and the machine is still at it; or the
    machine is at a byte that is no opcode, and its trace was printed last; or the next step
    has failed or the trace could not be printed. To run the machine again, with any sink and
    any limit, changes neither of them. -/
theorem state_after_run (hrunning : machine.running = true)
    (hreturns : Returns machine sink final out halt) :
    (∃ history later rest,
      Steps machine sink history later rest ∧
      (∀ transition ∈ history, transition.before.running = true) ∧
      final.running = false ∧
      final.cycles = machine.cycles + UInt64.ofNat history.length ∧
      final.memory = later.memory ∧ final.registers = later.registers ∧
      final.flags = later.flags ∧ final.pc = later.pc ∧
      Explains history later rest final out halt) ∧
    ∀ limit other, final.runFor limit other = ⟨final, other, some .halted⟩ := by
  obtain ⟨history, later, rest, hsteps, hbefore, hends⟩ := returns_iff.mp hreturns
  have hcycles := cycles_of_steps hsteps
  have hexplains := hends.explains hsteps hbefore hrunning
  have hstopped : final.running = false := by
    cases hends with
    | halted hstill => exact hstill
    | unknown => rfl
    | failed => rfl
  refine ⟨⟨history, later, rest, hsteps, hbefore, hstopped, ?_⟩,
    fun limit other => runFor_of_not_running hstopped limit other⟩
  -- Whatever has stopped the machine has left all else to the last step.
  cases hends with
  | halted => exact ⟨hcycles, rfl, rfl, rfl, rfl, hexplains⟩
  | unknown => exact ⟨hcycles, rfl, rfl, rfl, rfl, hexplains⟩
  | failed => exact ⟨hcycles, rfl, rfl, rfl, rfl, hexplains⟩

/-- A NOP and then a byte that is no opcode. -/
theorem state_after_run_unknown_opcode :
    let start := ofProgram ⟨[0x00, 0xFF], by decide⟩
    let final := (start.runFor 2 .unlimited).machine
    let out := (start.runFor 2 .unlimited).sink
    (start.running = true ∧ Returns start .unlimited final out (.unknownOpcode 0xFF 1)) ∧
    (∃ history later rest,
      Steps start .unlimited history later rest ∧
      final.cycles = start.cycles + UInt64.ofNat history.length ∧
      Explains history later rest final out (.unknownOpcode 0xFF 1)) ∧
    ∀ limit other, final.runFor limit other = ⟨final, other, some .halted⟩ := by
  intro start final out
  have hhalt : (start.runFor 2 .unlimited).halt = some (.unknownOpcode 0xFF 1) := by
    decide +kernel
  have hreturns := returns_of_halt hhalt
  obtain ⟨⟨history, later, rest, hsteps, -, -, hcycles, -, -, -, -, hexplains⟩, hagain⟩ :=
    state_after_run rfl hreturns
  exact ⟨⟨rfl, hreturns⟩, ⟨history, later, rest, hsteps, hcycles, hexplains⟩, hagain⟩

end ByteMachine.Machine
