import ByteMachine.Files
import ByteMachine.Log.Event
/-!
# Log libraries

Logging is done by a library that is no part of the machine. A session asks it to read
a filter, whether events are wanted, for the line of an event, and to write a log file.
How it does that is left open here: a library is whatever answers these questions.

Wherever the library is used it may break the session off, and then there is no answer.
-/

namespace ByteMachine.Log

/-- What a session uses of a log library. In place of an answer there is `none` where the
    library breaks the session off. -/
structure Library where
  /-- Filters that have been read. -/
  Filter : Type
  /-- Reads a filter. There is none in a text with a mistake. -/
  readFilter : String → Option (Option Filter)
  /-- Reads a filter and passes over all mistakes. -/
  readLeniently : String → Option Filter
  /-- Whether events of a level and target may be wanted. -/
  mayAdmit : Filter → Level → Target → Option Bool
  /-- Whether an event of a level and target is logged. -/
  admits : Filter → Level → Target → Option Bool
  /-- The line of an event. -/
  line : Event → Option String
  /-- What the writer of a log file has taken and not written yet. -/
  Queue : Type
  /-- Makes a log file at a path, or goes on with the one that is there: its place, the
      files afterwards, and what its writer starts with. -/
  create : String → Files → Option (Place × Files × Queue)
  /-- Takes a line for the log file. -/
  take : String → Queue → Option Queue
  /-- Gets round to writing: what is added to the log file, and what still waits. -/
  work : Queue → Option (String × Queue)
  /-- What is added to the log file at the end. -/
  finish : Queue → Option String

end ByteMachine.Log
