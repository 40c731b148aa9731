import ByteMachine.Log.Filter
import ByteMachine.Log.Library
/-!
# The standard log library

The library that the command line logs with. A log line shows the level of an event, its
target and its message; control characters in a message are shown as escapes, so that a
path cannot send commands to the terminal. A log file is made in a directory that is
there, and lines are added to it as they come.

Nothing that is proved of sessions depends on how this library goes about it.
-/

namespace ByteMachine.Log

/-! ## Lines -/

/-- A character as a log line shows it. -/
def shown (c : Char) : List Char :=
  if c = '\x1b' then ['\x5c', 'x', '1', 'b']
  else if c = '\x07' then ['\x5c', 'x', '0', '7']
  else if c = '\x08' then ['\x5c', 'x', '0', '8']
  else if c = '\x0c' then ['\x5c', 'x', '0', 'c']
  else if c = '\x7f' then ['\x5c', 'x', '7', 'f']
  else if 0x80 ≤ c.toNat ∧ c.toNat ≤ 0x9f then
    '\x5c' :: 'u' :: '\x7b' :: (Nat.toDigits 16 c.toNat ++ ['\x7d'])
  else [c]

/-- The event as a log line, with its terminator. -/
def Event.line (event : Event) : String :=
  event.level.name ++ " " ++ event.target.name ++ ": " ++
    String.ofList (event.message.toList.flatMap shown) ++ "\n"

/-! ## The library -/

/-- The library of the command line. -/
def standard : Library where
  Filter := Filter
  readFilter text := (Filter.read text).run
  readLeniently := Filter.readLeniently
  mayAdmit filter level target := some (filter.mayAdmit level target)
  admits filter level target := some (filter.admits level target)
  line event := some event.line
  -- A line is written as soon as it has been taken.
  Queue := String
  create path files :=
    match files.resolveNew path with
    | .ok place => some (place, files.append place "", "")
    | .error _ => none
  take line waiting := some (waiting ++ line)
  work waiting := some (waiting, "")
  finish waiting := some waiting

end ByteMachine.Log
