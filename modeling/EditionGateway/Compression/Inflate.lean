import EditionGateway.Bytes
import EditionGateway.Compression.CodeTree

/-!
Inflating: reading a stream of blocks, each stored as it is or as a sequence of literals and copies
of earlier output.

What is read is handed over in pieces. A piece ends where the output fills another window, where
the next window of input is begun, and at the end of the input; damage spoils the piece in which it
lies. The limit on the length of the output is looked at whenever a piece is handed over.
-/

namespace EditionGateway

/-- Why a stream has no result: it ends too early, it is damaged, or its output is too long. -/
inductive InflateFault
  | truncated
  | corrupt
  | tooLong
deriving DecidableEq, Repr

/-- Where the reading stands. Of the byte taken last, `held` bits have not been used. -/
structure Inflater where
  limit : Nat
  input : Bytes
  taken : Nat := 0
  hold : Nat := 0
  held : Nat := 0
  output : Array UInt8 := #[]

abbrev Inflate := StateT Inflater (Except InflateFault)

namespace Inflate

/-- The length of the window, the farthest that a copy may reach back. -/
def windowLength : Nat := 32768

def handOver : Inflate Unit := do
  let s ← get
  if s.limit < s.output.size then throw .tooLong

def nextByte : Inflate UInt8 := do
  let s ← get
  match s.input with
  | [] => do
    handOver
    throw .truncated
  | b :: r => do
    if s.taken ≠ 0 ∧ s.taken % windowLength = 0 then handOver
    set { s with input := r, taken := s.taken + 1 }
    return b

/-- The next bit; those of a byte come lowest first. -/
def bit : Inflate Nat := do
  let s ← get
  if s.held = 0 then
    let b ← nextByte
    modify fun s => { s with hold := b.toNat / 2, held := 7 }
    return b.toNat % 2
  else
    set { s with hold := s.hold / 2, held := s.held - 1 }
    return s.hold % 2

/-- A number of `n` bits, lowest first. -/
def bits : Nat → Inflate Nat
  | 0 => return 0
  | n + 1 => do
    let low ← bit
    let high ← bits n
    return low + 2 * high

/-- Drops what is left of the byte taken last. -/
def align : Inflate Unit := modify fun s => { s with hold := 0, held := 0 }

def put (b : UInt8) : Inflate Unit := do
  if (← get).output.size % windowLength = 0 then handOver
  modify fun s => { s with output := s.output.push b }

/-- Puts the output again that lies `distance` back. Before its beginning the output is zero. -/
def copy (distance : Nat) : Nat → Inflate Unit
  | 0 => return
  | n + 1 => do
    let b ← modifyGet fun s =>
      (if distance ≤ s.output.size then s.output.getD (s.output.size - distance) 0 else 0, s)
    put b
    copy distance n

/-- Goes down a code tree bit by bit. `code` are the bits so far, `first` is the first code of their
number, and `index` the place of its symbol. -/
def walk (symbols : Array Nat) (code first index : Nat) : List Nat → Inflate Nat
  | [] => throw .corrupt
  | count :: counts => do
    let code := 2 * code + (← bit)
    if code < first + count then return symbols.getD (index + (code - first)) 0
    else walk symbols code (2 * (first + count)) (index + count) counts

def symbol (t : CodeTree) : Inflate Nat := walk t.symbols 0 0 0 t.counts

/-- The numbers of extra bits and the least values of the lengths of copies, from symbol 257 on. -/
def lengthCodes : Array (Nat × Nat) := #[
  (0, 3), (0, 4), (0, 5), (0, 6), (0, 7), (0, 8), (0, 9), (0, 10), (1, 11), (1, 13), (1, 15),
  (1, 17), (2, 19), (2, 23), (2, 27), (2, 31), (3, 35), (3, 43), (3, 51), (3, 59), (4, 67), (4, 83),
  (4, 99), (4, 115), (5, 131), (5, 163), (5, 195), (5, 227), (0, 258)]

/-- The numbers of extra bits and the least values of the distances of copies. -/
def distanceCodes : Array (Nat × Nat) := #[
  (0, 1), (0, 2), (0, 3), (0, 4), (1, 5), (1, 7), (2, 9), (2, 13), (3, 17), (3, 25), (4, 33),
  (4, 49), (5, 65), (5, 97), (6, 129), (6, 193), (7, 257), (7, 385), (8, 513), (8, 769),
  (9, 1025), (9, 1537), (10, 2049), (10, 3073), (11, 4097), (11, 6145), (12, 8193), (12, 12289),
  (13, 16385), (13, 24577)]

/-- A value given by a code and extra bits. -/
def extended (codes : Array (Nat × Nat)) (i : Nat) : Inflate Nat :=
  match codes[i]? with
  | some (extra, least) => do return least + (← bits extra)
  | none => throw .corrupt

/-- The body of a block of literals and copies. Each symbol takes a bit at least, so `fuel` is the
number of bits at most. -/
def coded (literals distances : CodeTree) : Nat → Inflate Unit
  | 0 => throw .truncated
  | fuel + 1 => do
    let s ← symbol literals
    if s < 256 then
      put (UInt8.ofNat s)
      coded literals distances fuel
    else if s = 256 then return
    else
      let length ← extended lengthCodes (s - 257)
      let distance ← extended distanceCodes (← symbol distances)
      copy distance length
      coded literals distances fuel

def word : Inflate Nat := do
  let low ← nextByte
  let high ← nextByte
  return low.toNat + 256 * high.toNat

def putInput : Nat → Inflate Unit
  | 0 => return
  | n + 1 => do
    put (← nextByte)
    putInput n

/-- A block of bytes that stand for themselves. Their number is given twice, the second time with
all its bits changed. -/
def stored : Inflate Unit := do
  align
  let length ← word
  let check ← word
  if length + check ≠ 0xffff then throw .corrupt
  putInput length

def fixedLiterals : CodeTree :=
  .ofLengths (List.replicate 144 8 ++ List.replicate 112 9 ++ List.replicate 24 7
    ++ List.replicate 8 8)

def fixedDistances : CodeTree := .ofLengths (List.replicate 32 5)

/-- The order in which the lengths of the codes for code lengths are given. -/
def lengthOrder : List Nat := [16, 17, 18, 0, 8, 7, 9, 6, 10, 5, 11, 4, 12, 3, 13, 2, 14, 1, 15]

def replicateBits : Nat → Inflate (List Nat)
  | 0 => return []
  | n + 1 => do
    let v ← bits 3
    return v :: (← replicateBits n)

/-- Code lengths, given one by one or as repetitions, up to `total` of them; those of `done` are in
reverse. Each symbol gives one length at least. -/
def codeLengths (t : CodeTree) (total : Nat) : Nat → List Nat → Inflate (List Nat)
  | 0, done => return done.reverse
  | fuel + 1, done => do
    if total ≤ done.length then return done.reverse
    let s ← symbol t
    if s < 16 then codeLengths t total fuel (s :: done)
    else if s = 16 then
      match done with
      | [] => throw .corrupt
      | last :: _ =>
        let n ← bits 2
        codeLengths t total fuel (List.replicate (3 + n) last ++ done)
    else
      let n ← if s = 17 then bits 3 else (8 + ·) <$> bits 7
      codeLengths t total fuel (List.replicate (3 + n) 0 ++ done)

/-- A block that begins with the codes it uses. -/
def tailored (fuel : Nat) : Inflate Unit := do
  let literals := (← bits 5) + 257
  let distances := (← bits 5) + 1
  let given := (← bits 4) + 4
  if 286 < literals ∨ 30 < distances then throw .corrupt
  let firsts ← replicateBits given
  let ordered := (List.range 19).map fun i => firsts.getD (lengthOrder.idxOf i) 0
  let t := CodeTree.ofLengths ordered
  if ¬ t.isComplete then throw .corrupt
  let total := literals + distances
  let lengths ← codeLengths t total total []
  if lengths.length ≠ total then throw .corrupt
  let literals := CodeTree.ofLengths (lengths.take literals)
  let distances := CodeTree.ofLengths (lengths.drop (total - distances))
  if ¬ literals.isUsable ∨ ¬ distances.isUsable then throw .corrupt
  coded literals distances fuel

/-- Blocks up to the one that is marked as the last. -/
def blocks : Nat → Inflate Unit
  | 0 => throw .truncated
  | fuel + 1 => do
    let last ← bit
    let kind ← bits 2
    if kind = 0 then stored
    else if kind = 1 then coded fixedLiterals fixedDistances (fuel + 1)
    else if kind = 2 then tailored (fuel + 1)
    else throw .corrupt
    if last = 1 then return else blocks fuel

/-- The output of a stream that is read by `r`, of at most `limit` bytes. -/
def run (r : Nat → Inflate Unit) (limit : Nat) (input : Bytes) : Except InflateFault Bytes := do
  let start : Inflater := { limit, input }
  let (_, s) ← StateT.run (r (8 * input.length + 1) *> handOver) start
  return s.output.toList

end Inflate

/-- The output of a stream of blocks. Bytes after the last block are ignored. -/
def inflate (limit : Nat) (input : Bytes) : Except InflateFault Bytes :=
  Inflate.run Inflate.blocks limit input

end EditionGateway
