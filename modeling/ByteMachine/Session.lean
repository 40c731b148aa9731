import ByteMachine.Json.Printer
import ByteMachine.Program.Source
import ByteMachine.Session.Run
import ByteMachine.Settings
import ByteMachine.Snapshot
/-!
# Sessions

A session is one use of the machine from the command line: it opens its log, reads
the program at the path that it is given, runs it, saves the state of the machine
if asked to, and ends with an exit code.

A program need not end, so a session has a limit on the steps of its run. And a
session may break off, where the log library does or where a text that is to be
noted cannot be put together; it then ends where it is.
-/

namespace ByteMachine

/-! ## Exit codes -/

/-- The exit code of a session that was called in the wrong way. -/
def usageExitCode : UInt8 := 1

/-- The exit code of a session without a program. -/
def LoadError.exitCode : LoadError → UInt8
  | fileNotFound _ => 2
  | _ => 3

/-- The exit code of a session after its run: only a fault is a failure. -/
def Halt.exitCode : Halt → UInt8
  | fault _ => 4
  | _ => 0

namespace Session

/-- The exit code of a session that has broken off, as it is seen from outside. -/
def brokenOffExitCode : UInt8 := 101

/-- How a session ends. -/
inductive Exit where
  /-- By itself, with an exit code. -/
  | code (value : UInt8)
  /-- Because it has broken off. -/
  | brokenOff
  /-- Not within the limit on the steps of its run. -/
  | unfinished
deriving DecidableEq, Repr

/-! ## The program -/

/-- How the session is to be called. -/
def usage : String := "usage: ls8 <program.ls8>\n"

/-- The text of the program file at a path. -/
def sourceAt (files : Files) (path : String) : Except LoadError String :=
  match files.readText path with
  | .ok source => .ok source
  | .error .notFound => .error (.fileNotFound path)
  | .error e => .error (.unreadable path e.reason)

/-- The program in the file at a path. -/
def programAt (files : Files) (path : String) : Except LoadError Program := do
  Program.parse (← sourceAt files path)

/-- The last words about a halt. -/
def complaintOf : Halt → String
  | .fault fault => fault.message ++ "\n"
  | _ => ""

variable {library : Log.Library} (filter : library.Filter)

/-! ## The log -/

/-- The filter that a text describes; a text with a mistake asks for warnings. -/
def filterOf (text : String) (world : World library) : Except (World library) library.Filter := do
  match ← world.demand (library.readFilter text) with
  | some filter => return filter
  | none => world.demand (library.readLeniently "warn")

/-- What a session says at its start: where its log goes, if that is a file. -/
def announcement (settings : Settings) (logPath : String) : String :=
  match settings.logDestination with
  | .standardError => ""
  | .file => "Logging to file: " ++ logPath ++ "\n"

/-- Opens the log, at the given path if it goes to a file. -/
def openLog (settings : Settings) (logPath : String) (world : World library) :
    Except (World library) (library.Filter × World library) := do
  let filter ← filterOf settings.logFilter world
  let world := world.say (announcement settings logPath)
  match settings.logDestination with
  | .standardError => return (filter, world)
  | .file =>
    let (place, files, queue) ← world.demand (library.create logPath world.files)
    return (filter, { world with files, logFile := some { place, queue } })

/-- Notes the listing of a program, if it may be wanted. -/
def list (program : Program) (world : World library) : Except (World library) (World library) := do
  if ← world.demand (library.mayAdmit filter .debug .session) then
    let listing ← world.demand program.disassemble?
    world.noteAll filter (listing.map .listingLine)
  else return world

/-! ## Stages -/

/-- Loads a program that has been read. -/
def load (path : String) (program : Program) (world : World library) :
    Except (World library) (Except LoadError Machine × World library) := do
  let world ← world.noteEvent filter (.programRead program path)
  let world ← list filter program world
  match Machine.initial.tryLoad program with
  | .error e => return (.error e, world)
  | .ok machine =>
    let world ← world.noteEvent filter (.programLoaded program machine.stackLimit)
    return (.ok machine, world)

/-- Saves the state of the machine where the settings say, or notes that this has failed. Some
    of the log may have been written before. -/
def save (settings : Settings) (machine : Machine) (world : World library) :
    Except (World library) (World library) :=
  match settings.statePath with
  | none => .ok world
  | some path => do
    let world ← world.work
    match world.files.write path (Snapshot.encode machine).pretty with
    | .ok files => return { world with files }
    | .error e => world.noteEvent filter (.stateNotWritten path e.reason)

/-- Loads a program, runs it and saves the state. -/
def carryOut (limit : Nat) (settings : Settings) (path : String) (program : Program)
    (world : World library) : Except (World library) (Exit × World library) := do
  match ← load filter path program world with
  | (.error e, world) => return (.code e.exitCode, world.say (e.message ++ "\n"))
  | (.ok machine, world) =>
    match ← run filter limit machine world with
    | (_, none, world) => return (.unfinished, world)
    | (machine, some halt, world) =>
      -- The state is saved after a fault as well, and before the last words about it.
      let world ← save filter settings machine world
      return (.code halt.exitCode, world.say (complaintOf halt))

/-- What is done between opening the log and closing it. -/
def act (limit : Nat) (settings : Settings) (arguments : List String) (world : World library) :
    Except (World library) (Exit × World library) :=
  match arguments with
  | [path] =>
    match programAt world.files path with
    | .error e => .ok (.code e.exitCode, world.say (e.message ++ "\n"))
    | .ok program => carryOut filter limit settings path program world
  | _ => .ok (.code usageExitCode, world.say usage)

/-! ## Whole sessions -/

/-- A session from its start on, which may break off. -/
def attempt (limit : Nat) (settings : Settings) (logPath : String) (arguments : List String)
    (world : World library) : Except (World library) (Exit × World library) := do
  let (filter, world) ← openLog settings logPath world
  let (exit, world) ← act filter limit settings arguments world
  return (exit, ← world.close)

/-- How a session has ended. -/
structure Ending (library : Log.Library) where
  exit : Exit
  world : World library

/-- A session that logs by a library, with a log file at the given path if there is to be one. -/
def perform (library : Log.Library) (limit : Nat) (settings : Settings) (logPath : String)
    (arguments : List String) (files : Files) : Ending library :=
  match attempt limit settings logPath arguments { files } with
  | .ok (exit, world) => { exit, world }
  | .error world => { exit := .brokenOff, world }

end Session

end ByteMachine
