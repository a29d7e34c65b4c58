import EditionGateway.Json.Basic
import EditionGateway.Decimal.Shortest

/-!
Floats in JSON: the float that a numeral denotes, and the numeral that a float is written as.
-/

namespace EditionGateway

namespace Decimal

/-- Appends decimal digits to a number as long as it stays below `2 ^ 64`; also the digits that did
not fit. -/
def takeDigits (n : Nat) : List Nat → Nat × List Nat
  | [] => (n, [])
  | d :: r => if 10 * n + d < UInt64.size then takeDigits (10 * n + d) r else (n, d :: r)

/-- The first digits as a number below `2 ^ 64`, and the power of ten that goes with it. Of the
whole part, a digit that no longer fits counts as a zero; of the fraction, it ends the digits. -/
def parts (d : Decimal) : Nat × Int :=
  let (n, dropped) := takeDigits 0 d.whole
  let (m, unused) := takeDigits n d.fraction
  let places : Int := d.fraction.length - unused.length
  (m, dropped.length - places + d.exponent.getD 0)

/-- `f * 10 ^ e`, scaled by at most one power of ten at a time; `none` if it is too large. -/
def scale : Nat → Float → Int → Option Float
  | 0, f, _ => some f
  | fuel + 1, f, e =>
    if 0 ≤ e then
      if e ≤ 308 then
        let g := f * Float.ofScientific 1 false e.toNat
        if g.isInf then none else some g
      else if f == 0 then some f else none
    else if -308 ≤ e then some (f / Float.ofScientific 1 false (-e).toNat)
    else if f == 0 then some f
    else scale fuel (f / Float.ofScientific 1 false 308) (e + 308)

/-- The float of a numeral that is not written as an integer of 64 bits. -/
def toFloat? (d : Decimal) : Option Float :=
  let (n, e) := d.parts
  (scale 4 (UInt64.ofNat n).toFloat e).map fun f => if d.negative then -f else f

/-- The integer, if the numeral is one of 64 bits with or without a sign. -/
def toWord? (d : Decimal) : Option Int :=
  match d.toInt? with
  | some i => if -((UInt64.size / 2 : Nat) : Int) ≤ i ∧ i < UInt64.size then some i else none
  | none => none

end Decimal

namespace Numeral

/-- The nearest float to an integer of 64 bits. -/
def floatOfInt (i : Int) : Float :=
  match i with
  | .ofNat n => (UInt64.ofNat n).toFloat
  | .negSucc n => -(UInt64.ofNat (n + 1)).toFloat

def float32OfInt (i : Int) : Float32 :=
  match i with
  | .ofNat n => (UInt64.ofNat n).toFloat32
  | .negSucc n => -(UInt64.ofNat (n + 1)).toFloat32

/-- The bits of the 64-bit float that a numeral denotes; `none` if it is too large. -/
def toBits64? : Numeral → Option UInt64
  | .decimal d =>
    match d.toWord? with
    | some i => some (floatOfInt i).toBits
    | none => d.toFloat?.map Float.toBits
  | .binary32 b => some (Float32.ofBits b).toFloat.toBits
  | .binary64 b => some b

/-- The bits of the 32-bit float that a numeral denotes. A decimal that is not an integer is rounded
to 64 bits first; what is too large for 32 bits alone becomes an infinity. -/
def toBits32? : Numeral → Option UInt32
  | .decimal d =>
    match d.toWord? with
    | some i => some (float32OfInt i).toBits
    | none => d.toFloat?.map fun f => f.toFloat32.toBits
  | .binary32 b => some b
  | .binary64 b => some (Float.ofBits b).toFloat32.toBits

end Numeral

namespace Json

/-- How floats of one width are spelled: positionally when the power of ten of the first digit lies
between `low` and `high`, otherwise with an exponent. -/
structure FloatStyle where
  low : Int
  high : Int

def FloatStyle.wide : FloatStyle := ⟨-5, 15⟩

def FloatStyle.narrow : FloatStyle := ⟨-6, 12⟩

def digitChars (digits : List Nat) : String :=
  String.ofList (digits.map fun d => Char.ofNat (48 + d))

def zeros (n : Nat) : String := String.ofList (List.replicate n '0')

/-- Digits with a point in its place; an integral value ends in `.0`. -/
def positional (s : Decimal.Scientific) : String :=
  if s.exponent < 0 then "0." ++ zeros (-s.exponent - 1).toNat ++ digitChars s.digits
  else
    let n := s.exponent.toNat + 1
    if s.digits.length ≤ n then digitChars s.digits ++ zeros (n - s.digits.length) ++ ".0"
    else digitChars (s.digits.take n) ++ "." ++ digitChars (s.digits.drop n)

/-- Digits with an exponent, which always has its sign. -/
def exponential (s : Decimal.Scientific) : String :=
  let tail := digitChars (s.digits.drop 1)
  let front := digitChars (s.digits.take 1) ++ (if tail.isEmpty then "" else "." ++ tail)
  let sign := if s.exponent < 0 then "-" else "+"
  front ++ "e" ++ sign ++ toString s.exponent.natAbs

/-- The spelling of a float; what is not a finite number has none and is written as `null`. -/
def FloatStyle.spell (style : FloatStyle) : Decimal.FloatClass → String
  | .finite negative b =>
    let s := b.shortest
    let isPlain := style.low ≤ s.exponent ∧ s.exponent ≤ style.high
    let body := if isPlain then positional s else exponential s
    if negative then "-" ++ body else body
  | .zero negative => if negative then "-0.0" else "0.0"
  | .infinite _ => "null"
  | .nan => "null"

end Json
end EditionGateway
