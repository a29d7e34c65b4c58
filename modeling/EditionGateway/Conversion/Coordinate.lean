/-!
The arithmetic on coordinates that conversion needs, on the bits of floats.
-/

namespace EditionGateway.Conversion

/-- The nearest 32-bit float; what is too large becomes an infinity. -/
def narrow (bits : UInt64) : UInt32 := (Float.ofBits bits).toFloat32.toBits

/-- The same number as a 64-bit float. -/
def widen (bits : UInt32) : UInt64 := (Float32.ofBits bits).toFloat.toBits

def add (a b : UInt32) : UInt32 := (Float32.ofBits a + Float32.ofBits b).toBits

def sub (a b : UInt32) : UInt32 := (Float32.ofBits a - Float32.ofBits b).toBits

/-- The height of a player's eyes above his feet, 1.62. -/
def eyeHeight : UInt32 := 0x3fcf5c29

/-- An integer in eighths. -/
def eighths (i : Int32) : UInt32 := (i.toFloat32 / Float32.ofBits 0x41000000).toBits

/-- The least integer that is not below a finite number, at least 0 and at most `2 ^ 31 - 1`. -/
def ceilNat (bits : UInt32) : Int32 :=
  let c := (Float32.ofBits bits).ceil.toInt32
  if c < 0 then 0 else c

end EditionGateway.Conversion
