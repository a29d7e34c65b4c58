import EditionGateway.Bytes
import EditionGateway.Json.Basic

/-!
The tokens of a JSON text. Reading is by bytes: a string literal whose bytes are not UTF-8, or whose
escapes form a lone surrogate, is a token that spells no text.
-/

namespace EditionGateway.Json

inductive Token
  | leftBrace
  | rightBrace
  | leftBracket
  | rightBracket
  | comma
  | colon
  | text (s : Literal)
  | scalar (v : Json)

namespace Lexer

def isBlank (b : UInt8) : Bool := b = 32 || b = 9 || b = 10 || b = 13

def isDigit (b : UInt8) : Bool := 48 ≤ b && b ≤ 57

def hexDigit? (b : UInt8) : Option Nat :=
  if 48 ≤ b ∧ b ≤ 57 then some (b.toNat - 48)
  else if 97 ≤ b ∧ b ≤ 102 then some (b.toNat - 87)
  else if 65 ≤ b ∧ b ≤ 70 then some (b.toNat - 55)
  else none

def hexValue? (digits : Bytes) : Option Nat :=
  digits.foldlM (fun n b => (hexDigit? b).map (16 * n + ·)) 0

/-- The byte that a one-letter escape stands for. -/
def escaped? (b : UInt8) : Option UInt8 :=
  if b = 34 ∨ b = 92 ∨ b = 47 then some b
  else if b = 98 then some 8
  else if b = 102 then some 12
  else if b = 110 then some 10
  else if b = 114 then some 13
  else if b = 116 then some 9
  else none

/-- The part of a literal that has been read: its bytes in reverse, a high surrogate that waits for
its low one, and whether all so far spells a text. -/
structure Spelling where
  done : Bytes := []
  high : Option Nat := none
  spelled : Bool := true

namespace Spelling

def push (p : Spelling) (b : UInt8) : Spelling :=
  { done := b :: p.done, spelled := p.spelled && p.high.isNone }

def pushUnit (p : Spelling) (unit : Nat) : Spelling :=
  match p.high with
  | none =>
    if 0xD800 ≤ unit ∧ unit < 0xDC00 then { p with high := some unit }
    else if 0xDC00 ≤ unit ∧ unit < 0xE000 then { p with spelled := false }
    else { p with done := (Bytes.ofText (String.singleton (Char.ofNat unit))).reverse ++ p.done }
  | some high =>
    if 0xDC00 ≤ unit ∧ unit < 0xE000 then
      let c := Char.ofNat (0x10000 + (high - 0xD800) * 0x400 + (unit - 0xDC00))
      { p with done := (Bytes.ofText (String.singleton c)).reverse ++ p.done, high := none }
    else { p with high := none, spelled := false }

def result (p : Spelling) : Literal :=
  if p.spelled && p.high.isNone then Bytes.toText? p.done.reverse else none

end Spelling

/-- The literal that goes on with these bytes, and the bytes after its closing quote. -/
def literal (p : Spelling) : Bytes → Option (Literal × Bytes)
  | [] => none
  | 34 :: r => some (p.result, r)
  | 92 :: 117 :: a :: b :: c :: d :: r =>
    match hexValue? [a, b, c, d] with
    | some unit => literal (p.pushUnit unit) r
    | none => none
  | 92 :: b :: r =>
    match escaped? b with
    | some c => literal (p.push c) r
    | none => none
  | b :: r => if b < 32 ∨ b = 92 then none else literal (p.push b) r

/-- The digits at the front, and the bytes after them. -/
def digits (s : Bytes) : List Nat × Bytes :=
  ((s.takeWhile isDigit).map fun b => b.toNat - 48, s.dropWhile isDigit)

/-- A fraction, if there is one; a point without digits is refused. -/
def fraction (s : Bytes) : Option (List Nat × Bytes) :=
  match s with
  | 46 :: r =>
    match digits r with
    | ([], _) => none
    | (ds, t) => some (ds, t)
  | _ => some ([], s)

def signedDigits (negative : Bool) (s : Bytes) : Option (Option Int × Bytes) :=
  match digits s with
  | ([], _) => none
  | (ds, t) =>
    let n : Int := digitsValue ds
    some (some (if negative then -n else n), t)

/-- An exponent, if there is one. -/
def exponent (s : Bytes) : Option (Option Int × Bytes) :=
  match s with
  | b :: r =>
    if b = 101 ∨ b = 69 then
      match r with
      | 43 :: t => signedDigits false t
      | 45 :: t => signedDigits true t
      | _ => signedDigits false r
    else some (none, s)
  | [] => some (none, s)

/-- The number at the front. A whole part of more than one digit does not begin with zero. -/
def number (negative : Bool) (s : Bytes) : Option (Decimal × Bytes) := do
  let (whole, s) := digits s
  if whole = [] ∨ (whole.head? = some 0 ∧ whole.length ≠ 1) then none
  else
    let (frac, s) ← fraction s
    let (exp, s) ← exponent s
    return (⟨negative, whole, frac, exp⟩, s)

/-- The bytes after a word that stands at the front. -/
def word? (word : String) (s : Bytes) : Option Bytes :=
  let w := Bytes.ofText word
  if w.isPrefixOf s then some (s.drop w.length) else none

/-- The token at the front of a text that does not begin with a blank. -/
def token : Bytes → Option (Token × Bytes)
  | [] => none
  | b :: r =>
    if b = 123 then some (.leftBrace, r)
    else if b = 125 then some (.rightBrace, r)
    else if b = 91 then some (.leftBracket, r)
    else if b = 93 then some (.rightBracket, r)
    else if b = 44 then some (.comma, r)
    else if b = 58 then some (.colon, r)
    else if b = 34 then (literal {} r).map fun (s, t) => (.text s, t)
    else if b = 45 then (number true r).map fun (d, t) => (.scalar (.number (.decimal d)), t)
    else if isDigit b then
      (number false (b :: r)).map fun (d, t) => (.scalar (.number (.decimal d)), t)
    else if b = 110 then (word? "null" (b :: r)).map (.scalar .null, ·)
    else if b = 116 then (word? "true" (b :: r)).map (.scalar (.bool true), ·)
    else if b = 102 then (word? "false" (b :: r)).map (.scalar (.bool false), ·)
    else none

/-- The tokens of at most `fuel` bytes, behind those of `done`, which are in reverse. -/
def tokensFrom : Nat → Bytes → List Token → Option (List Token)
  | _, [], done => some done.reverse
  | 0, _ :: _, _ => none
  | fuel + 1, b :: r, done =>
    if isBlank b then tokensFrom fuel r done
    else
      match token (b :: r) with
      | some (t, s) => tokensFrom fuel s (t :: done)
      | none => none

def tokens (s : Bytes) : Option (List Token) := tokensFrom s.length s []

end Lexer
end EditionGateway.Json
