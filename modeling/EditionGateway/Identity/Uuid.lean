import EditionGateway.Identity.Md5

/-!
Universally unique identifiers: 128 bits, their text forms, and the identifiers made from a name.
-/

namespace EditionGateway

structure Uuid where
  high : UInt64
  low : UInt64
deriving DecidableEq, Repr

namespace Uuid

def nil : Uuid := ⟨0, 0⟩

def toBytes (u : Uuid) : Bytes := Bytes.be 8 u.high.toNat ++ Bytes.be 8 u.low.toNat

def ofBytes (s : Bytes) : Uuid :=
  ⟨UInt64.ofNat (Bytes.beValue (s.take 8)), UInt64.ofNat (Bytes.beValue (s.drop 8))⟩

/-- `width` lowercase hexadecimal digits of `n`. -/
def hex : Nat → Nat → List Char
  | 0, _ => []
  | width + 1, n => hex width (n / 16) ++ [Nat.digitChar (n % 16)]

/-- The text form, five groups of lowercase digits joined by hyphens. -/
def toText (u : Uuid) : String :=
  let a := hex 16 u.high.toNat
  let b := hex 16 u.low.toNat
  String.ofList (a.take 8 ++ '-' :: (a.drop 8).take 4 ++ '-' :: a.drop 12 ++ '-' :: b.take 4
    ++ '-' :: b.drop 4)

def hexValue? (c : Char) : Option Nat :=
  if '0' ≤ c ∧ c ≤ '9' then some (c.toNat - 48)
  else if 'a' ≤ c ∧ c ≤ 'f' then some (c.toNat - 87)
  else if 'A' ≤ c ∧ c ≤ 'F' then some (c.toNat - 55)
  else none

def ofDigits? (digits : List Char) : Option Uuid := do
  let n ← digits.foldlM (fun n c => (hexValue? c).map (16 * n + ·)) 0
  return ⟨UInt64.ofNat (n / UInt64.size), UInt64.ofNat (n % UInt64.size)⟩

/-- Reads five groups of digits joined by hyphens. -/
def ofHyphenated? (cs : List Char) : Option Uuid :=
  if cs.length = 36 ∧ [8, 13, 18, 23].all fun i => cs[i]? = some '-' then
    ofDigits? (cs.take 8 ++ (cs.drop 9).take 4 ++ (cs.drop 14).take 4 ++ (cs.drop 19).take 4
      ++ cs.drop 24)
  else none

/-- Reads 32 digits, or five groups of them, the groups also in braces or behind `urn:uuid:`. -/
def ofText? (s : String) : Option Uuid :=
  let cs := s.toList
  match cs.length with
  | 32 => ofDigits? cs
  | 36 => ofHyphenated? cs
  | 38 =>
    if cs.head? = some '\x7b' ∧ cs.getLast? = some '\x7d' then ofHyphenated? ((cs.drop 1).take 36)
    else none
  | 45 => if cs.take 9 = "urn:uuid:".toList then ofHyphenated? (cs.drop 9) else none
  | _ => none

/-- The name space of object identifiers. -/
def objectNames : Uuid := ⟨0x6ba7b8129dad11d1, 0x80b400c04fd430c8⟩

/-- The identifier of a name in a name space: the digest of both, marked as version 3. -/
def ofName (space : Uuid) (name : Bytes) : Uuid :=
  let u := ofBytes (Md5.digest (space.toBytes ++ name))
  ⟨(u.high &&& 0xffffffffffff0fff) ||| 0x3000,
    (u.low &&& 0x3fffffffffffffff) ||| 0x8000000000000000⟩

end Uuid
end EditionGateway
