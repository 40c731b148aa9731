import ByteMachine.Operation
import ByteMachine.Program.Basic
/-!
# Listings

The listing of a program has a line for each operation: its address, its bytes
and its text.

```text
00: 82 00 08  LDI R0,8
```

A byte at which no operation decodes is listed on its own, as data, and the
walk goes on with the next byte. Decoding sees the program followed by zeros up
to the end of memory, so the last operation may be cut short: its line shows
the bytes that the program has.
-/

namespace ByteMachine

/-- A line of a listing. -/
structure ListingLine where
  address : Nat
  bytes : List UInt8
  text : String
deriving DecidableEq, Repr

namespace ListingLine

/-- The number of characters of the column with the bytes. -/
def bytesWidth : Nat := 8

/-- Bytes as hexadecimal numerals with a space between them. -/
def bytesText (bytes : List UInt8) : String :=
  " ".intercalate (bytes.map fun byte => Numeral.hex byte.toNat)

/-- A text with spaces after it up to the given number of characters. -/
def padRight (width : Nat) (text : String) : String :=
  String.ofList (text.toList.rightpad width ' ')

/-- The line as it is shown. -/
def render (line : ListingLine) : String :=
  Numeral.hex line.address ++ ": " ++ padRight bytesWidth (bytesText line.bytes) ++ "  " ++
    line.text

end ListingLine

namespace Program

/-- Memory with the program in its first cells and zeros in the others. -/
def image (program : Program) : Memory :=
  Memory.blank.overlay program.bytes

/-- The number of bytes that the line at an address accounts for, and its text. -/
def lineAt (program : Program) (address : Nat) : Nat × String :=
  match Operation.decode program.image address with
  | .ok operation => (operation.width, operation.text)
  | .error _ => (1, "DB " ++ Numeral.markedHex (program.bytes.getD address 0).toNat)

theorem lineAt_pos (program : Program) (address : Nat) :
    0 < (program.lineAt address).1 := by
  unfold lineAt
  split
  · simp only [Operation.width]; omega
  · exact Nat.one_pos

/-- The lines from an address on. -/
def listingFrom (program : Program) (address : Nat) : List ListingLine :=
  if address < program.length then
    { address
      bytes := (program.bytes.drop address).take (program.lineAt address).1
      text := (program.lineAt address).2 }
      :: listingFrom program (address + (program.lineAt address).1)
  else []
termination_by program.length - address
decreasing_by
  have := program.lineAt_pos address
  omega

/-- The listing of a program. -/
def listing (program : Program) : List ListingLine :=
  program.listingFrom 0

/-- The listing as lines of text. -/
def disassemble (program : Program) : List String :=
  program.listing.map ListingLine.render

end Program

end ByteMachine
