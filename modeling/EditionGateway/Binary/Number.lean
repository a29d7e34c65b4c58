import EditionGateway.Binary.Reader

/-!
Whole numbers of the binary form. Up to 250 a number is one byte; above, a mark says whether two,
four or eight bytes follow, lowest first. A signed number is written as the unsigned one that counts
0, -1, 1, -2, 2 and so on.
-/

namespace EditionGateway.Binary

/-- The shortest form of a number below `2 ^ 64`. -/
def writeNat (n : Nat) : Bytes :=
  if n ≤ 250 then [UInt8.ofNat n]
  else if n < UInt16.size then 251 :: Bytes.le 2 n
  else if n < UInt32.size then 252 :: Bytes.le 4 n
  else 253 :: Bytes.le 8 n

/-- Reads a number in any of its forms, the longer ones of a small number included. -/
def readNat : Reader Nat := do
  let mark ← Reader.byte
  let word (width : Nat) : Reader Nat := do return Bytes.leValue (← Reader.take width)
  if mark ≤ 250 then return mark.toNat
  else if mark = 251 then word 2
  else if mark = 252 then word 4
  else if mark = 253 then word 8
  else Reader.fail .invalid

/-- A number below `bound`. -/
def readBelow (bound : Nat) : Reader Nat := do
  let n ← readNat
  if n < bound then return n else Reader.fail .invalid

/-- The place of an integer in the order 0, -1, 1, -2, 2, … -/
def zigzag : Int → Nat
  | .ofNat n => 2 * n
  | .negSucc n => 2 * n + 1

def unzigzag (n : Nat) : Int :=
  if n % 2 = 0 then .ofNat (n / 2) else .negSucc (n / 2)

theorem unzigzag_zigzag (i : Int) : unzigzag (zigzag i) = i := by
  cases i with
  | ofNat n => simp [zigzag, unzigzag]
  | negSucc n =>
    have h : (2 * n + 1) % 2 = 1 := by omega
    have h' : (2 * n + 1) / 2 = n := by omega
    simp [zigzag, unzigzag, h, h']

def writeInt (i : Int) : Bytes := writeNat (zigzag i)

/-- An integer, one of those that words with `size` values stand for. -/
def readInt (size : Nat) : Reader Int := do
  let i := unzigzag (← readNat)
  if -((size / 2 : Nat) : Int) ≤ i ∧ i < (size / 2 : Nat) then return i
  else Reader.fail .invalid

end EditionGateway.Binary
