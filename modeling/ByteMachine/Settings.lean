import ByteMachine.Text.Blank
/-!
# Settings

What the environment asks of a session: which events are logged and where to,
and where the state of the machine is saved at the end. A variable counts only
if its value is more than blanks.
-/

namespace ByteMachine

/-- Where the log goes. -/
inductive LogDestination where
  /-- To standard error, together with all other messages. -/
  | standardError
  /-- To a file of its own. -/
  | file
deriving DecidableEq, Repr

/-- The settings of a session. -/
structure Settings where
  /-- The text of the log filter. -/
  logFilter : String := "warn"
  logDestination : LogDestination := .standardError
  /-- The file for the state of the machine. -/
  statePath : Option String := none
deriving DecidableEq, Repr

namespace Settings

/-- The variable with the text of the log filter. -/
def filterVariable : String := "LS8_LOG"

/-- The variable that sends the log to a file, with any value but `0`. -/
def logFileVariable : String := "LS8_LOG_FILE"

/-- The variable with the path of the file for the state. -/
def stateVariable : String := "LS8_DUMP_STATE"

/-- The settings in an environment, given by the values of its variables. -/
def ofEnvironment (lookup : String → Option String) : Settings :=
  let value (name : String) := (lookup name).filter (!Text.allBlank ·)
  { logFilter := (value filterVariable).getD "warn"
    logDestination :=
      match value logFileVariable with
      | none => .standardError
      | some "0" => .standardError
      | some _ => .file
    statePath := value stateVariable }

end Settings

end ByteMachine
