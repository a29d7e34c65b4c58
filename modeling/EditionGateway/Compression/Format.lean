import EditionGateway.Compression.Deflate

/-!
The two forms of a compressed body: a bare stream of blocks, and a stream in a wrapper with a header
in front and a checksum behind.
-/

namespace EditionGateway

/-- A way to make bodies shorter. Decompressing is told how long the body may be. -/
structure Compression where
  compress : Bytes → Bytes
  decompress : Nat → Bytes → Except InflateFault Bytes

namespace Compression

/-- Decompressing gives back what was compressed. -/
def Lawful (c : Compression) : Prop :=
  ∀ (limit : Nat) (b : Bytes), b.length ≤ limit → c.decompress limit (c.compress b) = .ok b

def bare : Compression := ⟨deflate, inflate⟩

/-- Two sums modulo 65521, of the bytes and of the first sums after each byte, each 16 bits long. -/
def checksum (b : Bytes) : Nat :=
  let (low, high) := b.foldl
    (fun (low, high) x =>
      let low := (low + x.toNat) % 65521
      (low, (high + low) % 65521))
    (1, 0)
  65536 * high + low

/-- The header names the method, a window of at most 32 KiB and no dictionary, and is divisible by
31. -/
def isHeader (method flags : Nat) : Bool :=
  (256 * method + flags) % 31 = 0 && method % 16 = 8 && method / 16 ≤ 7 && flags / 32 % 2 = 0

def unwrap (fuel : Nat) : Inflate Unit := do
  let method ← Inflate.nextByte
  let flags ← Inflate.nextByte
  if ¬ isHeader method.toNat flags.toNat then throw .corrupt
  Inflate.blocks fuel
  Inflate.align
  let a ← Inflate.nextByte
  let b ← Inflate.nextByte
  let c ← Inflate.nextByte
  let d ← Inflate.nextByte
  if Bytes.beValue [a, b, c, d] ≠ checksum (← get).output.toList then throw .corrupt

def wrapped : Compression where
  compress b := 0x78 :: 0x9c :: deflate b ++ Bytes.be 4 (checksum b)
  decompress := Inflate.run unwrap

end Compression
end EditionGateway
