import ByteMachine.Numeral
import ByteMachine.Registers
/-!
# Trace lines

A trace shows where the machine stands in one line: the program counter, the
flags, the three cells from the program counter on and the registers, all in
hexadecimal.

```text
TRACE: 06 | 02 | C8 00 00 | 03 00 00 00 00 00 00 F4
```
-/

namespace ByteMachine

/-- What a trace line shows. -/
structure Trace where
  pc : Nat
  flags : UInt8
  /-- The cells from the program counter on, `none` beyond memory. -/
  cells : Vector (Option UInt8) 3
  registers : Registers
deriving DecidableEq, Repr

namespace Trace

/-- A column of the trace line with the content of a cell. -/
def cellText : Option UInt8 → String
  | some value => " " ++ Numeral.hex value.toNat
  | none => " --"

/-- The trace as a line, without its terminator. -/
def text (trace : Trace) : String :=
  "TRACE: " ++ Numeral.hex trace.pc ++ " | " ++ Numeral.hex trace.flags.toNat ++ " |" ++
    String.join (trace.cells.toList.map cellText) ++ " |" ++
    String.join (trace.registers.cells.toList.map fun value => cellText (some value))

end Trace

end ByteMachine
