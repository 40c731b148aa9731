import ByteMachine.Machine.Step
/-!
# Runs of the machine

A run repeats steps until the machine halts or a step fails. A program need not
end, so the number of steps has a limit here. A run that ends within the limit
is the same for every larger one.

A byte that is no opcode stops the machine with a trace line as its last
output. Any other failed step stops it with a fault.
-/

namespace ByteMachine

/-- Why a run ended. -/
inductive Halt where
  /-- The machine does not run any more. -/
  | halted
  /-- The byte at the program counter is no opcode. -/
  | unknownOpcode (opcode : UInt8) (pc : Nat)
  /-- A step failed. -/
  | fault (fault : Fault)
deriving DecidableEq, Repr

/-- The outcome of a run: `none` in place of a halt says that the limit was
    reached while the machine was still running. -/
structure Run where
  machine : Machine
  sink : Sink
  halt : Option Halt

namespace Machine

/-- Stops the machine on a fault. -/
def stop (machine : Machine) (sink : Sink) (fault : Fault) : Run :=
  let stopped := { machine with running := false }
  match fault with
  | .unknownOpcode opcode =>
    let line := machine.trace.text ++ "\n"
    -- A sink that refuses the trace line turns the stop into a fault.
    let halt :=
      if sink.admits line then .unknownOpcode opcode machine.pc.toNat
      else .fault (.output sink.refusal.reason)
    ⟨stopped, sink.offer line, some halt⟩
  | fault => ⟨stopped, sink, some (.fault fault)⟩

/-- Runs the machine for at most the given number of steps. -/
def runFor : Nat → Machine → Sink → Run
  | 0, machine, sink => ⟨machine, sink, if machine.running then none else some .halted⟩
  | limit + 1, machine, sink =>
    if machine.running then
      match machine.step sink with
      | ⟨machine, sink, .ok ()⟩ => runFor limit machine sink
      | ⟨machine, sink, .error fault⟩ => machine.stop sink fault
    else ⟨machine, sink, some .halted⟩

/-! ## Machines that do not run -/

/-- A machine that does not run is left as it is. -/
theorem runFor_of_not_running {machine : Machine} (h : machine.running = false) (limit : Nat)
    (sink : Sink) :
    machine.runFor limit sink = ⟨machine, sink, some .halted⟩ := by
  cases limit <;> simp only [runFor, h, Bool.false_eq_true, if_false]

end Machine

end ByteMachine
