import EditionGateway.Bytes.Hex
import EditionGateway.Json.Float

/-!
JSON in which floats are written by their bits, so that nothing of them is lost: 8 hexadecimal
digits for a float of 32 bits and 16 for one of 64. All that are not numbers are written alike.
-/

namespace EditionGateway
namespace Json

/-- A float as it is written here. -/
def floatText : Numeral → Option String
  | .binary32 b =>
    some (if 0x7f800000 < b &&& 0x7fffffff then "nan" else Bytes.toHex (Bytes.be 4 b.toNat))
  | .binary64 b =>
    some (if 0x7ff0000000000000 < b &&& 0x7fffffffffffffff then "nan"
      else Bytes.toHex (Bytes.be 8 b.toNat))
  | .decimal _ => none

/-- The float that is written so. -/
def floatOfText (s : String) : Json :=
  let b := Bytes.ofHex s
  if s = "nan" then .number (.binary64 0x7ff8000000000000)
  else if b.length = 4 then .number (.binary32 (UInt32.ofNat (Bytes.beValue b)))
  else .number (.binary64 (UInt64.ofNat (Bytes.beValue b)))

mutual

/-- Writes all floats by their bits. -/
def floatsToBits : Json → Json
  | .number n =>
    match floatText n with
    | some s => .str s
    | none => .number n
  | .array vs => .array (itemsToBits vs)
  | .object ms => .object (membersToBits ms)
  | j => j

def itemsToBits : List Json → List Json
  | [] => []
  | v :: vs => floatsToBits v :: itemsToBits vs

def membersToBits : List (Literal × Json) → List (Literal × Json)
  | [] => []
  | (k, v) :: ms => (k, floatsToBits v) :: membersToBits ms

end

mutual

/-- Reads the texts under certain keys as floats. -/
def bitsToFloats (keys : List String) : Json → Json
  | .array vs => .array (itemsToFloats keys vs)
  | .object ms => .object (membersToFloats keys ms)
  | j => j

def itemsToFloats (keys : List String) : List Json → List Json
  | [] => []
  | v :: vs => bitsToFloats keys v :: itemsToFloats keys vs

def membersToFloats (keys : List String) : List (Literal × Json) → List (Literal × Json)
  | [] => []
  | (some k, .text (some s)) :: ms =>
    (some k, if keys.contains k then floatOfText s else .str s) :: membersToFloats keys ms
  | (k, v) :: ms => (k, bitsToFloats keys v) :: membersToFloats keys ms

end

end Json
end EditionGateway
