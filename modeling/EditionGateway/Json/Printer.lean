import EditionGateway.Bytes
import EditionGateway.Json.Float

/-!
The compact spelling of a JSON value: no blanks, members in their order. In a string the quote, the
backslash and the control characters are escaped, all else stands for itself.
-/

namespace EditionGateway

namespace Numeral

def spell : Numeral → String
  | .decimal d =>
    (if d.negative then "-" else "") ++ Json.digitChars d.whole
      ++ (if d.fraction = [] then "" else "." ++ Json.digitChars d.fraction)
      ++ (match d.exponent with
        | some e => "e" ++ toString e
        | none => "")
  | .binary32 b => Json.FloatStyle.narrow.spell (Decimal.classify32 b)
  | .binary64 b => Json.FloatStyle.wide.spell (Decimal.classify64 b)

end Numeral

namespace Json

def hexByte (n : Nat) : UInt8 := UInt8.ofNat (if n < 10 then 48 + n else 87 + n)

/-- The spelling of one byte of a string. -/
def escapeByte (b : UInt8) : Bytes :=
  if b = 34 ∨ b = 92 then [92, b]
  else if b = 8 then [92, 98]
  else if b = 9 then [92, 116]
  else if b = 10 then [92, 110]
  else if b = 12 then [92, 102]
  else if b = 13 then [92, 114]
  else if b < 32 then [92, 117, 48, 48, hexByte (b.toNat / 16), hexByte (b.toNat % 16)]
  else [b]

def quote (s : String) : Bytes := 34 :: (Bytes.ofText s).flatMap escapeByte ++ [34]

/-- A literal that spells no text is written as a lone surrogate. -/
def spellLiteral : Literal → Bytes
  | some s => quote s
  | none => Bytes.ofText "\"\\ud800\""

mutual

def render : Json → Bytes
  | .null => Bytes.ofText "null"
  | .bool b => Bytes.ofText (if b then "true" else "false")
  | .number n => Bytes.ofText n.spell
  | .text s => spellLiteral s
  | .array [] => [91, 93]
  | .array (v :: vs) => 91 :: render v ++ renderItems vs ++ [93]
  | .object [] => [123, 125]
  | .object ((k, v) :: ms) => 123 :: spellLiteral k ++ 58 :: render v ++ renderMembers ms ++ [125]

def renderItems : List Json → Bytes
  | [] => []
  | v :: vs => 44 :: render v ++ renderItems vs

def renderMembers : List (Literal × Json) → Bytes
  | [] => []
  | (k, v) :: ms => 44 :: spellLiteral k ++ 58 :: render v ++ renderMembers ms

end

/-- The spelling as a text. -/
def spell (j : Json) : String := (Bytes.toText? j.render).getD ""

end Json
end EditionGateway
