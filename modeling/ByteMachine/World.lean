import ByteMachine.Log.Library
import ByteMachine.Sink
/-!
# Worlds

What a session acts on: the files, what the program prints to, standard error, and
the log file if there is one. Events are noted in the world at the moment they
happen, to the log file or to standard error. The filter says whether an event is
noted, and only if it is, its message is worked out.

A session breaks off where the log library does, or where a message cannot be
worked out. What comes back is then the world as it was left.
-/

namespace ByteMachine

/-- A log file that is open. -/
structure LogFile (library : Log.Library) where
  place : Place
  /-- What is still to be written to it. -/
  queue : library.Queue

/-- What a session acts on. -/
structure World (library : Log.Library) where
  files : Files
  /-- What the program prints to. -/
  output : Sink := .unlimited
  /-- What has been written to standard error. -/
  diagnostics : String := ""
  /-- Without a log file, the log goes to standard error. -/
  logFile : Option (LogFile library) := none

namespace World

variable {library : Log.Library}

/-- The place of the log file. -/
def logPlace? (world : World library) : Option Place :=
  world.logFile.map LogFile.place

/-- An answer that the session cannot do without. -/
def demand {α : Type} (world : World library) (answer : Option α) : Except (World library) α :=
  match answer with
  | some answer => .ok answer
  | none => .error world

/-- Writes a text to standard error. -/
def say (text : String) (world : World library) : World library :=
  { world with diagnostics := world.diagnostics ++ text }

/-! ## The log -/

/-- An occasion to write to the log file. -/
def work (world : World library) : Except (World library) (World library) :=
  match world.logFile with
  | none => .ok world
  | some file => do
    let (text, queue) ← world.demand (library.work file.queue)
    return {
      world with
      files := world.files.append file.place text
      logFile := some { file with queue } }

/-- Takes a line of the log. -/
def record (line : String) (world : World library) : Except (World library) (World library) :=
  match world.logFile with
  | none => .ok (world.say line)
  | some file => do
    let queue ← world.demand (library.take line file.queue)
    work { world with logFile := some { file with queue } }

/-- Notes an event if the filter lets it pass. Only then its message is asked for. -/
def note (filter : library.Filter) (level : Log.Level) (target : Log.Target)
    (message : Unit → Option String) (world : World library) :
    Except (World library) (World library) := do
  if ← world.demand (library.admits filter level target) then
    let message ← world.demand (message ())
    let line ← world.demand (library.line ⟨level, target, message⟩)
    world.record line
  else return world

/-- Notes an event whose message is there. -/
def noteEvent (filter : library.Filter) (event : Log.Event) (world : World library) :
    Except (World library) (World library) :=
  world.note filter event.level event.target fun _ => some event.message

/-- Notes one event after the other. -/
def noteAll (filter : library.Filter) (events : List Log.Event) (world : World library) :
    Except (World library) (World library) :=
  events.foldlM (fun world event => world.noteEvent filter event) world

/-- Writes all that is left for the log file, at the end of a session. -/
def close (world : World library) : Except (World library) (World library) :=
  match world.logFile with
  | none => .ok world
  | some file => do
    let text ← world.demand (library.finish file.queue)
    return { world with files := world.files.append file.place text }

end World

end ByteMachine
