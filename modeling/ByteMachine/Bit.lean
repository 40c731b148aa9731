/-!
# Bits of a byte

Reading and changing one bit of a byte. Positions count from the least
significant bit and range over 0 to 7.
-/

namespace ByteMachine.Bit

/-- The byte in which only the bit at the given position is set. -/
def mask (position : UInt8) : UInt8 :=
  1 <<< position

/-- Whether the bit at the given position is set. -/
def get (byte position : UInt8) : Bool :=
  (byte >>> position) &&& 1 == 1

/-- The byte with the bit at the given position set or cleared. -/
def set (byte position : UInt8) (value : Bool) : UInt8 :=
  if value then byte ||| mask position else byte &&& ~~~(mask position)

end ByteMachine.Bit
