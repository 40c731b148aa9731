import ByteMachine.Log.Rule
/-!
# Log filters

A log filter is written as rules with commas between them:

```text
warn,emu=info,emu::cpu=trace
```

A target stands for all targets that start with it, and of the rules that cover
an event the one with the longest target decides; a level alone covers every
event, and a target alone lets all its events through. A target that no rule
covers is not logged.

No event is part of a span, and the only field of an event is its message.
-/

namespace ByteMachine.Log

/-- A log filter. -/
structure Filter where
  rules : List Rule
deriving DecidableEq, Repr

namespace Filter

/-- Reads a filter; empty parts between commas do not count. The first mistake is the end
    of it, so that reading cannot break off behind one. -/
def read (text : String) : OptionT Option Filter := do
  let rules ← (Text.parts ',' text.toList).mapM Rule.read
  return ⟨rules⟩

/-- Reads a filter and passes over the rules with mistakes. -/
def readLeniently (text : String) : Option Filter := do
  let rules ← (Text.parts ',' text.toList).mapM fun part => (Rule.read part).run
  return ⟨rules.filterMap id⟩

/-- The rule that decides about a target: of those that cover it the one that all
    others yield to. -/
def decisive (filter : Filter) (target : Target) (hasField : List Char → Bool) :
    Option Rule :=
  (filter.rules.filter fun rule => rule.covers target hasField).foldl
    (fun best rule =>
      if best.all fun other => other.yieldsTo rule then some rule else best)
    none

/-- Whether events of a level and target are wanted at all, whatever their fields. -/
def mayAdmit (filter : Filter) (level : Level) (target : Target) : Bool :=
  (filter.decisive target fun _ => true).any fun rule => level.passes rule.threshold

/-- Whether an event with this level and target is logged. -/
def admits (filter : Filter) (level : Level) (target : Target) : Bool :=
  (filter.decisive target (· == "message".toList)).any fun rule =>
    level.passes rule.threshold

/-! ## Small filters -/

theorem readLeniently_warn :
    readLeniently "warn" = some ⟨[{ threshold := some .warn }]⟩ := by decide +kernel

example : ((read "warn,emu=trace").run.map fun filter =>
    filter.map fun filter => (filter.admits .debug .processor, filter.admits .debug .session)) =
    some (some (true, false)) := by decide +kernel

example : (read "emu=loud").run = some none := by decide +kernel

-- A blank of three bytes in front: the target would end within it.
example : (read "\u3000a=info").run = none := by decide +kernel

end Filter

end ByteMachine.Log
