import ByteMachine.Log.Standard
import ByteMachine.Session
/-!
# The command line

Runs a session on the real file system and the real environment. All that a
session decides is decided in `ByteMachine.Session`; what is done here is to
read, to write, and to run the machine in stretches, so that the output of a
program that does not end is seen as well. The log is kept by the standard library.
-/

namespace ByteMachine.CommandLine

/-- The number of steps after which output is written. -/
def stretch : Nat := 4096

/-- The number of the system error behind a failed operation, and its wording. -/
def systemError? : IO.Error → Option (UInt32 × String)
  | .alreadyExists _ code details
  | .interrupted _ code details
  | .noFileOrDirectory _ code details
  | .invalidArgument _ code details
  | .permissionDenied _ code details
  | .resourceExhausted _ code details
  | .inappropriateType _ code details
  | .noSuchThing _ code details
  | .otherError code details
  | .resourceBusy code details
  | .resourceVanished code details
  | .unsupportedOperation code details
  | .hardwareFault code details
  | .unsatisfiedConstraints code details
  | .illegalOperation code details
  | .protocolError code details
  | .timeExpired code details => some (code, details)
  | .unexpectedEof | .userError _ => none

/-- The file error with the given system number, which may be negated. -/
def fileError? (code : UInt32) : Option FileError :=
  let number := if code < 0x80000000 then code else 0 - code
  if number = 2 then some .notFound
  else if number = 20 then some .notDirectory
  else if number = 21 then some .isDirectory
  else if number = 36 then some .nameTooLong
  else none

/-- The wording of a failed operation on a file. -/
def reasonOf (e : IO.Error) : String :=
  match systemError? e with
  | none => toString e
  | some (code, details) =>
    match fileError? code with
    | some e => e.reason
    | none => details ++ " (os error " ++ code.toNat.repr ++ ")"

/-- The text of the program file at a path. -/
def sourceAt (path : String) : IO (Except LoadError String) := do
  try
    let content ← IO.FS.readBinFile path
    match String.fromUTF8? content with
    | some text => return .ok text
    | none => return .error (.unreadable path FileError.notText.reason)
  catch e =>
    if ((systemError? e).bind fun (code, _) => fileError? code) = some .notFound then
      return .error (.fileNotFound path)
    else return .error (.unreadable path (reasonOf e))

/-- The settings in the environment of the process. -/
def readSettings : IO Settings := do
  let names :=
    [Settings.filterVariable, Settings.logFileVariable, Settings.stateVariable]
  let values ← names.mapM fun name => return (name, ← IO.getEnv name)
  return Settings.ofEnvironment fun name => (values.lookup name).join

/-- A path for a log file, in the directory for temporary files. -/
def chooseLogPath : IO String := do
  let directory := (← IO.getEnv "TMPDIR").getD "/tmp"
  return directory ++ "/ls8-" ++ (← IO.monoMsNow).repr ++ ".log"

/-- Opens the log: what comes back writes text to it. -/
def openLog (settings : Settings) : IO (String → IO Unit) := do
  match settings.logDestination with
  | .standardError => return IO.eprint
  | .file =>
    let path ← chooseLogPath
    IO.eprint (Session.announcement settings path)
    let handle ← IO.FS.Handle.mk path .append
    return fun text => do
      handle.putStr text
      handle.flush

/-- Carries out a part of a session in a world of its own, and then writes out what has been
    noted and printed there. There is no answer if the session has broken off. -/
def play {α : Type} (log : String → IO Unit)
    (part : World Log.standard → Except (World Log.standard) (α × World Log.standard)) :
    OptionT IO α := do
  let (answer, world) :=
    match part { files := {} } with
    | .ok (answer, world) => (some answer, world)
    | .error world => (none, world)
  log world.diagnostics
  let output ← IO.getStdout
  output.putStr world.output.written
  output.flush
  OptionT.mk (return answer)

/-- Runs the machine to the end, writing what it prints. -/
partial def run (filter : Log.Filter) (log : String → IO Unit) (machine : Machine) :
    OptionT IO (Machine × Halt) := do
  let (machine, halt) ← play log fun world => do
    let (machine, halt, world) ← Session.run filter stretch machine world
    return ((machine, halt), world)
  match halt with
  | some halt => return (machine, halt)
  | none => run filter log machine

/-- Saves the state of the machine; an event is noted if that fails. -/
def save (settings : Settings) (filter : Log.Filter) (log : String → IO Unit)
    (machine : Machine) : OptionT IO Unit := do
  match settings.statePath with
  | none => return
  | some path =>
    match ← (IO.FS.writeFile path (Snapshot.encode machine).pretty).toBaseIO with
    | .ok () => return
    | .error e =>
      play log fun world => do
        return ((), ← world.noteEvent filter (.stateNotWritten path (reasonOf e)))

/-- A session with the program at a path. -/
def session (settings : Settings) (filter : Log.Filter) (log : String → IO Unit)
    (path : String) : OptionT IO UInt8 := do
  match (← sourceAt path).bind Program.parse with
  | .error e =>
    IO.eprint (e.message ++ "\n")
    return e.exitCode
  | .ok program =>
    match ← play log (Session.load filter path program) with
    | .error e =>
      IO.eprint (e.message ++ "\n")
      return e.exitCode
    | .ok machine =>
      let (machine, halt) ← run filter log machine
      save settings filter log machine
      IO.eprint (Session.complaintOf halt)
      return halt.exitCode

/-- A session with the given arguments. -/
def act (arguments : List String) : OptionT IO UInt8 := do
  let settings ← readSettings
  let filter ← play IO.eprint fun world => do
    return (← Session.filterOf settings.logFilter world, world)
  let log ← openLog settings
  match arguments with
  | [path] => session settings filter log path
  | _ =>
    IO.eprint Session.usage
    return usageExitCode

end ByteMachine.CommandLine

/-- Runs the program at the path that is the only argument. -/
def main (arguments : List String) : IO UInt32 := do
  let exit ← (ByteMachine.CommandLine.act arguments).run
  return (exit.getD ByteMachine.Session.brokenOffExitCode).toUInt32
