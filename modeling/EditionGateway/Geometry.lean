/-!
Places in the world. Floats are kept as their bits, so that a place is sent on exactly as it came.
-/

namespace EditionGateway

/-- Three 32-bit floats, by their bits. -/
structure Vec3 where
  x : UInt32 := 0
  y : UInt32 := 0
  z : UInt32 := 0
deriving DecidableEq, Repr

/-- A block, by the whole numbers of its corner. -/
structure BlockPos where
  x : Int32
  y : Int32
  z : Int32
deriving DecidableEq, Repr

/-- A 32-bit float is finite unless all bits of its exponent are set. -/
def isFinite32 (bits : UInt32) : Bool := bits &&& 0x7f800000 != 0x7f800000

def Vec3.isFinite (v : Vec3) : Bool := isFinite32 v.x && isFinite32 v.y && isFinite32 v.z

end EditionGateway
