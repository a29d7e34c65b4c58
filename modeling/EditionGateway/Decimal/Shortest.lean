/-!
The shortest decimal that reads back as a given binary number.

A binary number is `m * 2 ^ q` with `m` below `2 ^ precision`. The reals that round to it form an
interval; for 1, 2, … digits the two neighbours of the number on that decimal grid are tried, and
the first grid with a neighbour in the interval wins.
-/

namespace EditionGateway.Decimal

/-- A positive finite binary number, `mantissa * 2 ^ exponent`. `narrowBelow` says that the next
lower number is only half as far away as the next higher one. -/
structure Binary where
  mantissa : Nat
  exponent : Int
  narrowBelow : Bool

/-- Decimal digits without trailing zeros, and the power of ten of the first of them. -/
structure Scientific where
  digits : List Nat
  exponent : Int
deriving DecidableEq, Repr

namespace Binary

/-- `num / den` is a quarter of the distance between neighbours. -/
def quarter (b : Binary) : Nat × Nat :=
  let q := b.exponent - 2
  if 0 ≤ q then (Nat.pow 2 q.toNat, 1) else (1, Nat.pow 2 (-q).toNat)

/-- The exponent `e` with `10 ^ e ≤ num / den < 10 ^ (e + 1)`, at least `-fuel`. -/
def lowPower (num den : Nat) : Nat → Int
  | 0 => 0
  | fuel + 1 => if den ≤ 10 * num then -1 else lowPower (10 * num) den fuel - 1

def power (num den : Nat) : Int :=
  if den ≤ num then ((Nat.toDigits 10 (num / den)).length : Int) - 1 else lowPower num den 400

/-- The best decimal with `count` digits that rounds to the number. -/
def withDigits? (b : Binary) (count : Nat) : Option (Nat × Int) :=
  let (unit, den) := b.quarter
  let value := 4 * b.mantissa * unit
  let low := value - (if b.narrowBelow then 1 else 2) * unit
  let high := value + 2 * unit
  let step := power value den - (count - 1)
  -- `up` and `down` bring the number to the grid of `10 ^ step`
  let up := Nat.pow 10 (-step).toNat
  let down := Nat.pow 10 step.toNat
  let inside (k : Nat) : Bool :=
    let scaled := k * down * den
    if b.mantissa % 2 = 0 then low * up ≤ scaled && scaled ≤ high * up
    else low * up < scaled && scaled < high * up
  let floor := value * up / (down * den)
  let rest := 2 * (value * up - floor * (down * den))
  let whole := down * den
  match inside floor, inside (floor + 1) with
  | true, false => some (floor, step)
  | false, true => some (floor + 1, step)
  | true, true =>
    if rest < whole ∨ (rest = whole ∧ floor % 2 = 0) then some (floor, step)
    else some (floor + 1, step)
  | false, false => none

def dropZeros : List Nat → List Nat
  | 0 :: r => dropZeros r
  | digits => digits

/-- The decimal `n * 10 ^ step`. -/
def scientific (n : Nat) (step : Int) : Scientific :=
  let digits := (Nat.toDigits 10 n).map fun c => c.toNat - 48
  ⟨(dropZeros digits.reverse).reverse, step + digits.length - 1⟩

/-- The shortest decimal that reads back as the number, the nearest one if there are several. -/
def shortest (b : Binary) : Scientific :=
  match (List.range 17).findSome? fun i => b.withDigits? (i + 1) with
  | some (n, step) => scientific n step
  | none => ⟨[0], 0⟩

end Binary

/-- A binary float, told apart by what its text depends on. -/
inductive FloatClass
  | finite (negative : Bool) (value : Binary)
  | zero (negative : Bool)
  | infinite (negative : Bool)
  | nan

/-- The class of the float that consists of a sign bit, `width` bits of exponent and `fraction` bits
of fraction. -/
def classify (width fraction : Nat) (bits : Nat) : FloatClass :=
  let unit := Nat.pow 2 fraction
  let exponents := Nat.pow 2 width
  let f := bits % unit
  let e := bits / unit % exponents
  let negative := bits / (unit * exponents) % 2 = 1
  let bias : Int := (exponents / 2 : Nat) - 1
  if e = exponents - 1 then if f = 0 then .infinite negative else .nan
  else if e = 0 then
    if f = 0 then .zero negative
    else .finite negative ⟨f, 1 - bias - fraction, false⟩
  else .finite negative ⟨unit + f, e - bias - fraction, f = 0 ∧ 1 < e⟩

def classify32 (bits : UInt32) : FloatClass := classify 8 23 bits.toNat

def classify64 (bits : UInt64) : FloatClass := classify 11 52 bits.toNat

end EditionGateway.Decimal
