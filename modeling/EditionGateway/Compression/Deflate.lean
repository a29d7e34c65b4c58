import EditionGateway.Compression.Inflate

/-!
Deflating: writing bytes as one block of literals and copies in the fixed code, or as stored blocks
where that is shorter.
-/

namespace EditionGateway
namespace Deflate

/-- A byte, or a copy of `length` bytes that lie `distance` back. -/
inductive Token
  | literal (b : UInt8)
  | copy (length distance : Nat)
deriving Repr

def maxCopy : Nat := 258

/-- How many bytes from `i` on agree with those from `j` on, at most `n`. -/
def agreement (x : Array UInt8) (i j : Nat) : Nat → Nat
  | 0 => 0
  | n + 1 => if x.getD i 0 = x.getD j 0 then agreement x (i + 1) (j + 1) n + 1 else 0

def slotCount : Nat := 4096

/-- The slot in which the last place of three bytes is remembered. -/
def slot (x : Array UInt8) (i : Nat) : Nat :=
  ((x.getD i 0).toNat * 961 + (x.getD (i + 1) 0).toNat * 31 + (x.getD (i + 2) 0).toNat) % slotCount

/-- The copy that begins at `i` if the last place with the same slot was `j`. -/
def copyAt (x : Array UInt8) (i j : Nat) : Nat :=
  if j < i ∧ i - j ≤ Inflate.windowLength then agreement x i j (min maxCopy (x.size - i)) else 0

/-- The copy that begins at `i`, where a slot holds one more than the place it remembers, or 0. -/
def copyFrom (x : Array UInt8) (i seen : Nat) : Nat := if seen = 0 then 0 else copyAt x i (seen - 1)

/-- The tokens of the bytes from `i` on, behind those of `done`, which are in reverse. -/
def tokens (x : Array UInt8) (slots : Array Nat) (i : Nat) (done : List Token) : List Token :=
  if h : i < x.size then
    let s := slot x i
    let seen := slots.getD s 0
    let slots := slots.setIfInBounds s (i + 1)
    match copyFrom x i seen with
    | n + 3 => tokens x slots (i + (n + 3)) (.copy (n + 3) (i + 1 - seen) :: done)
    | _ => tokens x slots (i + 1) (.literal x[i] :: done)
  else done.reverse
termination_by x.size - i

/-- Bits as numbers of a width, lowest bit first. -/
abbrev BitRun := List (Nat × Nat)

def reverseBits : Nat → Nat → Nat
  | 0, _ => 0
  | width + 1, v => Nat.pow 2 width * (v % 2) + reverseBits width (v / 2)

/-- A code is written highest bit first. -/
def code (width v : Nat) : Nat × Nat := (width, reverseBits width v)

def symbolCode (s : Nat) : Nat × Nat :=
  if s < 144 then code 8 (0x30 + s)
  else if s < 256 then code 9 (0x190 + (s - 144))
  else if s < 280 then code 7 (s - 256)
  else code 8 (0xc0 + (s - 280))

/-- The last code whose least value is not above `v`, with the extra bits that are left. -/
def codeFor (codes : Array (Nat × Nat)) (v : Nat) : Nat × Nat × Nat :=
  let i := codes.toList.countP (fun c => c.2 ≤ v) - 1
  match codes[i]? with
  | some (extra, least) => (i, extra, v - least)
  | none => (0, 0, 0)

def tokenBits : Token → BitRun
  | .literal b => [symbolCode b.toNat]
  | .copy length distance =>
    let (i, extra, rest) := codeFor Inflate.lengthCodes length
    let (j, extra', rest') := codeFor Inflate.distanceCodes distance
    [symbolCode (257 + i), (extra, rest), code 5 j, (extra', rest')]

/-- Packs bits into bytes; `held` bits of `hold` are waiting, and `done` is in reverse. -/
def pack (hold held : Nat) (done : Bytes) : BitRun → Bytes
  | [] => (if held = 0 then done else UInt8.ofNat hold :: done).reverse
  | (width, v) :: r =>
    let hold := hold + v * Nat.pow 2 held
    let held := held + width
    let ready := held / 8
    pack (hold / Nat.pow 256 ready) (held % 8) ((Bytes.le ready hold).reverse ++ done) r

/-- One block in the fixed code. -/
def coded (b : Bytes) : Bytes :=
  let ts := tokens b.toArray (Array.replicate slotCount 0) 0 []
  pack 0 0 [] ((1, 1) :: (2, 1) :: ts.flatMap tokenBits ++ [symbolCode 256])

/-- Stored blocks of at most 65535 bytes each. -/
def stored (b : Bytes) : Bytes :=
  let n := min b.length 0xffff
  let front := (if n < b.length then 0 else 1) :: Bytes.le 2 n ++ Bytes.le 2 (0xffff - n)
  if _h : n < b.length then front ++ b.take n ++ stored (b.drop n) else front ++ b
termination_by b.length
decreasing_by simp only [List.length_drop]; omega

end Deflate

/-- A stream of blocks from which inflating gives back the bytes. -/
def deflate (b : Bytes) : Bytes :=
  let short := Deflate.coded b
  let long := Deflate.stored b
  if short.length < long.length then short else long

end EditionGateway
