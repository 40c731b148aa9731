import ByteMachine.Machine.Effect
import ByteMachine.Sink
/-!
# Steps of the machine

Carrying out an operation takes its effect as a whole or not at all: first the
effect is worked out, then its text is offered to the sink, and only if the
sink takes all of it is the machine changed.

A step fetches the opcode, decodes the operation and carries it out. The
fetched opcode is kept also if the step fails later on.
-/

namespace ByteMachine

/-- What comes back from carrying something out: the machine and the sink
    afterwards, and a result or a fault. -/
structure Reply (α : Type) where
  machine : Machine
  sink : Sink
  result : Except Fault α

namespace Machine

/-- Carries out an operation as if it stood at the program counter. The result
    is the address of the operation that follows, which is not yet stored. -/
def execute (machine : Machine) (operation : Operation) (sink : Sink) : Reply Nat :=
  match machine.effect operation with
  | .error fault => ⟨machine, sink, .error fault⟩
  | .ok effect =>
    if sink.admits effect.output then
      ⟨effect.machine, sink.offer effect.output, .ok effect.next⟩
    else
      -- What the sink has taken cannot be taken back, but the machine stays as it was.
      ⟨machine, sink.offer effect.output, .error (.output sink.refusal.reason)⟩

/-- The machine when an operation is complete and the next one is known. -/
def advance (machine : Machine) (next : Nat) : Machine :=
  { machine with pc := UInt64.ofNat next, cycles := machine.cycles + 1 }

/-- Fetches, decodes and carries out one operation. -/
def step (machine : Machine) (sink : Sink) : Reply Unit :=
  match machine.fetch with
  | .error fault => ⟨machine, sink, .error fault⟩
  | .ok opcode =>
    let fetched := { machine with ir := opcode }
    match fetched.decode with
    | .error fault => ⟨fetched, sink, .error fault⟩
    | .ok operation =>
      match fetched.execute operation sink with
      | ⟨after, sink, .ok next⟩ => ⟨after.advance next, sink, .ok ()⟩
      | ⟨after, sink, .error fault⟩ => ⟨after, sink, .error fault⟩

end Machine

end ByteMachine
