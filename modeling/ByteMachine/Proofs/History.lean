import ByteMachine.Proofs.Step
/-!
# Histories of steps

Runs of any length as a relation: a history lists the steps that were made, each with
the machine before it and the machine after it. Only successful steps count, and the
machine need not be running for them, so a statement about all histories is one about
every way of driving the machine step by step.

## Main statements

- `exists_executes_of_step`: a step that was made carried an instruction out.
-/

namespace ByteMachine

/-- A step that was made. -/
structure Transition where
  before : Machine
  after : Machine

/-- Whether the step carried out one of the given instructions. -/
def Transition.carriesOut (instructions : List Instruction) (transition : Transition) : Bool :=
  match transition.before.instruction? with
  | some instruction => instructions.contains instruction
  | none => false

namespace Machine

variable {machine next : Machine} {sink out : Sink}

/-! ## Single steps -/

/-- A step that was made is that of an instruction: its checks passed, the sink took its
    output, and the machine changed as the tables have it. -/
theorem exists_executes_of_step (h : machine.step sink = ⟨next, out, .ok ()⟩) :
    ∃ instruction, machine.Executes instruction ∧
      sink.admits (machine.outputAfter instruction) = true ∧
      out = sink.offer (machine.outputAfter instruction) ∧
      next = { machine.after instruction with
        pc := UInt64.ofNat (machine.landing instruction) } := by
  have hok : (machine.step sink).result = .ok () := by rw [h]
  obtain ⟨instruction, hexecutes, hadmits⟩ := executes_of_step_ok hok
  rw [step_of_executes hexecutes, if_pos hadmits] at h
  cases h
  exact ⟨instruction, hexecutes, hadmits, rfl, rfl⟩

/-- A step without a fault, as a whole. -/
theorem step_eq_of_ok (h : (machine.step sink).result = .ok ()) :
    machine.step sink = ⟨(machine.step sink).machine, (machine.step sink).sink, .ok ()⟩ := by
  rw [← h]

/-- A step without a fault, into a sink without a limit. -/
theorem step_of_room_none (hfree : sink.room = none) (hclear : machine.fault? = none) :
    machine.step sink = ⟨(machine.step sink).machine, (machine.step sink).sink, .ok ()⟩ := by
  apply step_eq_of_ok
  rw [result_of_room_none _ hfree, hclear]
  rfl

/-- A step without a fault that prints nothing, into a sink without a limit. -/
theorem step_of_clear (h : machine.fault? = none)
    (hsink : (machine.step .unlimited).sink = .unlimited) :
    machine.step .unlimited = ⟨(machine.step .unlimited).machine, .unlimited, .ok ()⟩ := by
  have hstep : machine.step .unlimited =
      ⟨(machine.step .unlimited).machine, (machine.step .unlimited).sink, .ok ()⟩ :=
    step_of_room_none rfl h
  rw [hsink] at hstep
  exact hstep

/-! ## Histories -/

/-- `Steps machine sink history later rest` says that successful steps lead from `machine`
    and `sink` to `later` and `rest`. The history lists these steps, oldest first. -/
inductive Steps (machine : Machine) (sink : Sink) : List Transition → Machine → Sink → Prop
  | refl : Steps machine sink [] machine sink
  | snoc {history : List Transition} {later next : Machine} {rest out : Sink} :
      Steps machine sink history later rest →
      later.step rest = ⟨next, out, .ok ()⟩ →
      Steps machine sink (history ++ [⟨later, next⟩]) next out

end Machine

end ByteMachine
