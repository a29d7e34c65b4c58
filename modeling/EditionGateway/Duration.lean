/-!
Lengths of time and how they are said: in the largest unit that fits, with as many decimals as
needed.
-/

namespace EditionGateway

structure Duration where
  nanos : Nat
deriving DecidableEq, Repr

namespace Duration

def ofMicros (n : Nat) : Duration := ⟨n * 1000⟩

def ofMillis (n : Nat) : Duration := ⟨n * 1000000⟩

def millis (d : Duration) : Nat := d.nanos / 1000000

/-- The digits of a fraction of `10 ^ width` parts, without the zeros at its end. -/
def fractionDigits (width part : Nat) : List Char :=
  let digits := (toString part).toList
  let padded := List.replicate (width - digits.length) '0' ++ digits
  (padded.reverse.dropWhile (· = '0')).reverse

/-- A number of units of `10 ^ width` nanoseconds. -/
def inUnit (width : Nat) (unit : String) (nanos : Nat) : String :=
  let size := Nat.pow 10 width
  let fraction := fractionDigits width (nanos % size)
  let tail := if fraction.isEmpty then [] else '.' :: fraction
  toString (nanos / size) ++ String.ofList tail ++ unit

def label (d : Duration) : String :=
  if 1000000000 ≤ d.nanos then inUnit 9 "s" d.nanos
  else if 1000000 ≤ d.nanos then inUnit 6 "ms" d.nanos
  else if 1000 ≤ d.nanos then inUnit 3 "µs" d.nanos
  else inUnit 0 "ns" d.nanos

end Duration
end EditionGateway
