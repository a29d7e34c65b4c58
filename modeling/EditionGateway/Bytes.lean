/-!
Byte strings, the fixed-width words in them, and their reading as text.

`leValue_le` and `beValue_be` say that a word that fits its width is read back as it was written;
`toText?_ofText` says the same of text.
-/

namespace EditionGateway

abbrev Bytes := List UInt8

namespace Bytes

/-- The `width` lowest base-256 digits of `n`, lowest first. -/
def le : Nat → Nat → Bytes
  | 0, _ => []
  | width + 1, n => UInt8.ofNat n :: le width (n / 256)

/-- The number whose base-256 digits are the bytes, lowest first. -/
def leValue : Bytes → Nat
  | [] => 0
  | b :: r => b.toNat + 256 * leValue r

/-- The `width` lowest base-256 digits of `n`, highest first. -/
def be (width n : Nat) : Bytes := (le width n).reverse

/-- The number whose base-256 digits are the bytes, highest first. -/
def beValue (b : Bytes) : Nat := leValue b.reverse

/-- The UTF-8 form of a text. -/
def ofText (s : String) : Bytes := s.toUTF8.data.toList

/-- The text whose UTF-8 form the bytes are. -/
def toText? (b : Bytes) : Option String := String.fromUTF8? ⟨b.toArray⟩

@[simp] theorem length_le (width n : Nat) : (le width n).length = width := by
  induction width generalizing n with
  | zero => rfl
  | succ w ih => simp [le, ih]

@[simp] theorem length_be (width n : Nat) : (be width n).length = width := by simp [be]

theorem leValue_le (width n : Nat) : leValue (le width n) = n % Nat.pow 256 width := by
  induction width generalizing n with
  | zero => exact (Nat.mod_one n).symm
  | succ w ih =>
    have byte : (UInt8.ofNat n).toNat = n % 256 := by simp
    have power : Nat.pow 256 (w + 1) = 256 * Nat.pow 256 w := Nat.mul_comm _ _
    rw [le, leValue, ih, byte, power, Nat.mod_mul]

theorem beValue_be (width n : Nat) : beValue (be width n) = n % Nat.pow 256 width := by
  simp [beValue, be, leValue_le]

theorem toText?_ofText (s : String) : toText? (ofText s) = some s := by
  have h : s.toByteArray.IsValidUTF8 := s.isValidUTF8
  simp [toText?, ofText, String.fromUTF8?, String.toUTF8, String.fromUTF8, h]

end Bytes
end EditionGateway
