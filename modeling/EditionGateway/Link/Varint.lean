import EditionGateway.Bytes
import EditionGateway.Link.Error

/-!
Lengths in groups of seven bits, lowest first. Every byte but the last has its highest bit set.
-/

namespace EditionGateway
namespace Varint

/-- A length takes at most this many bytes. -/
def maxWidth : Nat := 5

def write (n : Nat) : Bytes :=
  if _h : n < 128 then [UInt8.ofNat n] else UInt8.ofNat (n % 128 + 128) :: write (n / 128)
termination_by n

/-- The number in front of a byte string and its width; nothing if more bytes are needed. The number
so far is `value`, and `width` bytes gave it; only its lowest 32 bits count. -/
def peekFrom (value width : Nat) : Nat → Bytes → Except LinkError (Option (Nat × Nat))
  | 0, _ => .error (.malformed .lengthTooWide)
  | _ + 1, [] => .ok none
  | left + 1, b :: s =>
    let value := value + b.toNat % 128 * Nat.pow 128 width
    if b < 128 then .ok (some (value % UInt32.size, width + 1))
    else peekFrom value (width + 1) left s

def peek (s : Bytes) : Except LinkError (Option (Nat × Nat)) := peekFrom 0 0 maxWidth s

end Varint
end EditionGateway
