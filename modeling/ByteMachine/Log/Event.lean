import ByteMachine.Fault
import ByteMachine.Program.Basic
/-!
# Log events

What may be logged in the course of a session, each event with its level, the
target that it belongs to and its message.
-/

namespace ByteMachine.Log

/-- How much an event matters. -/
inductive Level where
  | error | warn | info | debug | trace
deriving DecidableEq, Repr

/-- The levels in order, the one that matters most first. -/
def Level.rank : Level → Nat
  | error => 1 | warn => 2 | info => 3 | debug => 4 | trace => 5

/-- The name of a level in a log line. -/
def Level.name : Level → String
  | error => "ERROR" | warn => "WARN" | info => "INFO" | debug => "DEBUG" | trace => "TRACE"

/-- The part of the program that an event comes from. -/
inductive Target where
  /-- The loading of programs. -/
  | loader
  /-- The machine. -/
  | processor
  /-- The session around the machine. -/
  | session
deriving DecidableEq, Repr

/-- The name of a target in log lines and filters. -/
def Target.name : Target → String
  | loader => "emu::program"
  | processor => "emu::cpu::ls8"
  | session => "ls8"

/-- A log event. -/
structure Event where
  level : Level
  target : Target
  message : String
deriving DecidableEq, Repr

/-! ## The events of a session -/

namespace Event

/-- A program has been read from a file. -/
def programRead (program : Program) (path : String) : Event :=
  ⟨.debug, .loader, "loaded " ++ program.length.repr ++ " bytes from " ++ path⟩

/-- A line of the program's listing. -/
def listingLine (line : String) : Event :=
  ⟨.debug, .session, line⟩

/-- The machine has been given a program. -/
def programLoaded (program : Program) (stackLimit : UInt8) : Event :=
  ⟨.debug, .processor, "program of " ++ program.length.repr ++ " bytes loaded, stack limit " ++
    Numeral.markedHex stackLimit.toNat⟩

/-- The machine has come upon a byte that is no opcode. -/
def unknownOpcode (opcode : UInt8) (address : Nat) : Event :=
  ⟨.warn, .processor, "unknown opcode " ++ Numeral.markedBinary opcode.toNat ++ " at " ++
    Numeral.markedHex address⟩

/-- The machine has stopped on a fault. -/
def fault (fault : Fault) (address : Nat) : Event :=
  ⟨.error, .processor, "fault at " ++ Numeral.markedHex address ++ ": " ++ fault.message⟩

/-- The machine has halted. -/
def halted (cycles : UInt64) : Event :=
  ⟨.debug, .processor, "halted after " ++ cycles.toNat.repr ++ " cycles"⟩

/-- The state of the machine could not be saved. -/
def stateNotWritten (path reason : String) : Event :=
  ⟨.warn, .session, "could not write state to " ++ path ++ ": " ++ reason⟩

end Event

end ByteMachine.Log
