/-!
# Sinks

A sink takes the text that a program prints. It may have room for a limited
number of bytes; a text that does not fit is taken as far as it does, and the
sink then refuses the rest with its reason. All text that the machine prints is
ASCII, so each character is one byte.
-/

namespace ByteMachine

/-- How a sink refuses what it has no room for. -/
inductive Refusal where
  /-- It reports an error of its own. -/
  | failing (message : String)
  /-- It reports no error and takes nothing. -/
  | stalling
deriving DecidableEq, Repr

/-- The reason that a refusal gives. -/
def Refusal.reason : Refusal → String
  | failing message => message
  | stalling => "failed to write whole buffer"

/-- A taker of printed text. -/
structure Sink where
  /-- The number of bytes that still fit, `none` if there is no limit. -/
  room : Option Nat := none
  refusal : Refusal := .stalling
  /-- The text taken so far. -/
  written : String := ""
deriving DecidableEq, Repr

namespace Sink

/-- A sink that takes everything. -/
def unlimited : Sink := {}

instance : Inhabited Sink := ⟨unlimited⟩

/-- Whether a text fits into the sink as a whole. -/
def admits (sink : Sink) (text : String) : Bool :=
  match sink.room with
  | none => true
  | some room => text.length ≤ room

/-- The part of a text that fits into the sink. -/
def fitting (sink : Sink) (text : String) : String :=
  match sink.room with
  | none => text
  | some room => String.ofList (text.toList.take room)

/-- The sink after it has been offered a text. -/
def offer (sink : Sink) (text : String) : Sink :=
  { sink with
    room := sink.room.map (· - text.length)
    written := sink.written ++ sink.fitting text }

/-! ## Sinks without a limit -/

theorem admits_of_room_none {sink : Sink} (h : sink.room = none) (text : String) :
    sink.admits text = true := by
  simp only [admits, h]

theorem written_offer_of_room_none {sink : Sink} (h : sink.room = none) (text : String) :
    (sink.offer text).written = sink.written ++ text := by
  simp only [offer, fitting, h]

/-- A sink without a limit stays one. -/
theorem room_offer_of_room_none {sink : Sink} (h : sink.room = none) (text : String) :
    (sink.offer text).room = none := by
  simp only [offer, h, Option.map_none]

end Sink

end ByteMachine
