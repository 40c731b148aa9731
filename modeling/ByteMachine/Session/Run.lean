import ByteMachine.CheckedTexts
import ByteMachine.Machine.Run
import ByteMachine.World
/-!
# Runs that tell what they do

A run in the world of a session prints to the output of that world and notes its
events there. It does what the machine does, unless it breaks off on a note.
-/

namespace ByteMachine.Session

variable {library : Log.Library} (filter : library.Filter)

/-- A step that tells which operation it has decoded. -/
def step (machine : Machine) (world : World library) :
    Except (World library) (Machine × Except Fault Unit × World library) :=
  match machine.fetch with
  | .error fault => .ok (machine, .error fault, world)
  | .ok opcode =>
    let fetched := { machine with ir := opcode }
    match fetched.decode with
    | .error fault => .ok (fetched, .error fault, world)
    | .ok operation => do
      -- The text may be missing, but that matters only if the note is made.
      let message (_ : Unit) := operation.text?.map fun text =>
        Numeral.hex fetched.pc.toNat ++ ": " ++ text
      let world ← world.note filter .trace .processor message
      match fetched.execute operation world.output with
      | ⟨after, sink, .ok next⟩ => return (after.advance next, .ok (), { world with output := sink })
      | ⟨after, sink, .error fault⟩ => return (after, .error fault, { world with output := sink })

/-- Stops the machine on a fault and tells so. -/
def stop (machine : Machine) (fault : Fault) (world : World library) :
    Except (World library) (Machine × Option Halt × World library) :=
  let stopped := { machine with running := false }
  match fault with
  | .unknownOpcode opcode => do
    let world ← world.noteEvent filter (.unknownOpcode opcode stopped.pc.toNat)
    -- The trace line belongs to the output, not to the log, and so it comes after the note.
    let line := machine.trace.text ++ "\n"
    let halt :=
      if world.output.admits line then .unknownOpcode opcode stopped.pc.toNat
      else .fault (.output world.output.refusal.reason)
    return (stopped, some halt, { world with output := world.output.offer line })
  | fault => do
    let world ← world.noteEvent filter (.fault fault stopped.pc.toNat)
    return (stopped, some (.fault fault), world)

/-- A machine that does not run any more tells how many operations it has carried out. -/
def halt (machine : Machine) (world : World library) :
    Except (World library) (Machine × Option Halt × World library) := do
  let world ← world.noteEvent filter (.halted machine.cycles)
  return (machine, some .halted, world)

/-- A run of at most the given number of steps. -/
def run : Nat → Machine → World library →
    Except (World library) (Machine × Option Halt × World library)
  | 0, machine, world =>
    if machine.running then .ok (machine, none, world) else halt filter machine world
  | limit + 1, machine, world =>
    if machine.running then do
      match ← step filter machine world with
      | (machine, .ok (), world) => run limit machine world
      | (machine, .error fault, world) => stop filter machine fault world
    else halt filter machine world

end ByteMachine.Session
