/-!
JSON values as they are spelled: members in order and with their repetitions, numbers digit by
digit, and string literals that spell no Unicode text kept apart from those that do.
-/

namespace EditionGateway

/-- A JSON number, digit by digit. `fraction` is empty when there is no fraction. -/
structure Decimal where
  negative : Bool
  whole : List Nat
  fraction : List Nat
  exponent : Option Int
deriving DecidableEq, Repr

/-- A number that has been read, or a binary float that is still to be written. -/
inductive Numeral
  | decimal (d : Decimal)
  | binary32 (bits : UInt32)
  | binary64 (bits : UInt64)
deriving DecidableEq, Repr

/-- The text of a string literal; `none` for a literal that spells no text, such as a lone
surrogate. -/
abbrev Literal := Option String

inductive Json
  | null
  | bool (b : Bool)
  | number (n : Numeral)
  | text (s : Literal)
  | array (items : List Json)
  | object (members : List (Literal × Json))
deriving Repr

/-- The value of a list of base-10 digits, highest first. -/
def digitsValue (digits : List Nat) : Nat := digits.foldl (fun n d => 10 * n + d) 0

/-- The base-10 digits of a number, highest first. -/
def digitsOf (n : Nat) : List Nat := (Nat.toDigits 10 n).map fun c => c.toNat - 48

namespace Decimal

def ofInt (i : Int) : Decimal := ⟨i < 0, digitsOf i.natAbs, [], none⟩

/-- The integer, if the number is written as one. A negative zero is not an integer. -/
def toInt? (d : Decimal) : Option Int :=
  if d.fraction ≠ [] ∨ d.exponent.isSome then none
  else
    let n := digitsValue d.whole
    if d.negative then if n = 0 then none else some (-(n : Int)) else some n

end Decimal

namespace Json

def str (s : String) : Json := .text (some s)

def ofInt (i : Int) : Json := .number (.decimal (.ofInt i))

def ofNat (n : Nat) : Json := ofInt n

/-- An object with these members in this order. -/
def obj (members : List (String × Json)) : Json := .object (members.map fun m => (some m.1, m.2))

/-- The integer that a number is written as. -/
def int? : Json → Option Int
  | .number (.decimal d) => d.toInt?
  | _ => none

/-- The natural number below `bound` that a number is written as. -/
def natBelow? (bound : Nat) (j : Json) : Option Nat :=
  match j.int? with
  | some (.ofNat n) => if n < bound then some n else none
  | _ => none

/-- The integer that a number is written as, if it is one of those that words with `size` values
stand for. -/
def intOfWord? (size : Nat) (j : Json) : Option Int :=
  match j.int? with
  | some i => if -((size / 2 : Nat) : Int) ≤ i ∧ i < (size / 2 : Nat) then some i else none
  | none => none

def bool? : Json → Option Bool
  | .bool b => some b
  | _ => none

def text? : Json → Option String
  | .text s => s
  | _ => none

/-- The members of an object, if each key spells a text. -/
def members? : Json → Option (List (String × Json))
  | .object ms => ms.mapM fun m => m.1.map (·, m.2)
  | _ => none

end Json
end EditionGateway
