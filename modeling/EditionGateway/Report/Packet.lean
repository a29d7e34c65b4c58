import EditionGateway.Json.FloatBits
import EditionGateway.Json.Access
import EditionGateway.Shape.Codec

/-!
Packets and other values as they are reported in JSON: floats by their bits.
-/

namespace EditionGateway.Shape

variable {α : Type}

/-- The keys whose values are floats. -/
def floatKeys : List String :=
  ["x", "y", "z", "yaw", "pitch", "head_yaw", "volume", "health", "saturation"]

/-- How deep reports may be nested. -/
def maxReportDepth : Nat := 1000

def report (s : Shape α) (a : α) : Json := (s.toJson a).floatsToBits

def ofReport? (s : Shape α) (j : Json) : Option α :=
  s.ofJson maxReportDepth (j.bitsToFloats floatKeys)

end EditionGateway.Shape
