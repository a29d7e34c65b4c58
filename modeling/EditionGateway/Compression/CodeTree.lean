/-!
Prefix codes over small numbers, given by the length of the code of each symbol: shorter codes come
first, and codes of one length follow the order of their symbols.
-/

namespace EditionGateway

/-- How many codes there are of each length from 1 to 15, and the symbols in the order of their
codes. -/
structure CodeTree where
  counts : List Nat
  symbols : Array Nat
deriving Repr

namespace CodeTree

def maxLength : Nat := 15

/-- The code in which symbol `i` has the length `lengths[i]`; a symbol of length 0 has no code. -/
def ofLengths (lengths : List Nat) : CodeTree where
  counts := (List.range maxLength).map fun i => lengths.count (i + 1)
  symbols := ((List.range maxLength).flatMap fun i =>
    (lengths.zipIdx.filter fun e => e.1 = i + 1).map (·.2)).toArray

/-- How much of all sequences of 15 bits the codes take up. -/
def coverage (t : CodeTree) : Nat := t.counts.foldl (fun n c => 2 * n + c) 0

/-- Each sequence of bits begins with exactly one code. -/
def isComplete (t : CodeTree) : Bool := t.coverage = Nat.pow 2 maxLength

/-- A code is usable if it is complete or has no more than one symbol. -/
def isUsable (t : CodeTree) : Bool := t.isComplete || t.symbols.size ≤ 1

end CodeTree
end EditionGateway
