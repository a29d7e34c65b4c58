import EditionGateway.Bytes

/-!
Byte strings as text: two lowercase hexadecimal digits for each byte.
-/

namespace EditionGateway
namespace Bytes

def hexDigits (b : UInt8) : List Char :=
  [Nat.digitChar (b.toNat / 16), Nat.digitChar (b.toNat % 16)]

def toHex (b : Bytes) : String := String.ofList (b.flatMap hexDigits)

/-- The value of a digit; any other character counts as 0. -/
def hexValue (c : Char) : Nat :=
  if '0' ≤ c ∧ c ≤ '9' then c.toNat - 48
  else if 'a' ≤ c ∧ c ≤ 'f' then c.toNat - 87
  else if 'A' ≤ c ∧ c ≤ 'F' then c.toNat - 55
  else 0

/-- The bytes of pairs of digits, behind those of `done`, which are in reverse. -/
def ofHexDigits (done : Bytes) : List Char → Bytes
  | a :: b :: r => ofHexDigits (UInt8.ofNat (16 * hexValue a + hexValue b) :: done) r
  | _ => done.reverse

def ofHex (s : String) : Bytes := ofHexDigits [] s.toList

end Bytes
end EditionGateway
