import EditionGateway.Binary.Number
import EditionGateway.Identity.Uuid
import EditionGateway.Json.Float

/-!
Shapes: how values of a type are laid out in the binary form and in JSON. The shape of a compound
type is put together from the shapes of its parts, so both layouts follow from one description.
-/

namespace EditionGateway

open Binary (Reader)

/-- A layout of the values of a type. `ofJson` is told how many containers may still be opened;
`absent` is the value of an object member that is left out, if it may be. -/
structure Shape (α : Type) where
  write : α → Bytes
  read : Reader α
  toJson : α → Json
  ofJson : Nat → Json → Option α
  absent : Option α := none

namespace Shape

variable {α β : Type}

/-- The same layout for a type that stands for another one. -/
def imap (s : Shape α) (build : α → β) (view : β → α) : Shape β where
  write b := s.write (view b)
  read := do return build (← s.read)
  toJson b := s.toJson (view b)
  ofJson d j := (s.ofJson d j).map build
  absent := s.absent.map build

def flag : Shape Bool where
  write b := [if b then 1 else 0]
  read := do
    let b ← Reader.byte
    if b = 0 then return false else if b = 1 then return true else Reader.fail .badFlag
  toJson := .bool
  ofJson _ j := j.bool?

/-- A byte. -/
def u8 : Shape UInt8 where
  write b := [b]
  read := Reader.byte
  toJson b := .ofNat b.toNat
  ofJson _ j := (j.natBelow? UInt8.size).map UInt8.ofNat

def u16 : Shape UInt16 where
  write n := Binary.writeNat n.toNat
  read := do return UInt16.ofNat (← Binary.readBelow UInt16.size)
  toJson n := .ofNat n.toNat
  ofJson _ j := (j.natBelow? UInt16.size).map UInt16.ofNat

def u32 : Shape UInt32 where
  write n := Binary.writeNat n.toNat
  read := do return UInt32.ofNat (← Binary.readBelow UInt32.size)
  toJson n := .ofNat n.toNat
  ofJson _ j := (j.natBelow? UInt32.size).map UInt32.ofNat

def u64 : Shape UInt64 where
  write n := Binary.writeNat n.toNat
  read := do return UInt64.ofNat (← Binary.readBelow UInt64.size)
  toJson n := .ofNat n.toNat
  ofJson _ j := (j.natBelow? UInt64.size).map UInt64.ofNat

def i32 : Shape Int32 where
  write i := Binary.writeInt i.toInt
  read := do return Int32.ofInt (← Binary.readInt UInt32.size)
  toJson i := .ofInt i.toInt
  ofJson _ j := (j.intOfWord? UInt32.size).map Int32.ofInt

def i64 : Shape Int64 where
  write i := Binary.writeInt i.toInt
  read := do return Int64.ofInt (← Binary.readInt UInt64.size)
  toJson i := .ofInt i.toInt
  ofJson _ j := (j.intOfWord? UInt64.size).map Int64.ofInt

/-- A 32-bit float, by its bits. -/
def f32 : Shape UInt32 where
  write b := Bytes.le 4 b.toNat
  read := do return UInt32.ofNat (Bytes.leValue (← Reader.take 4))
  toJson b := .number (.binary32 b)
  ofJson
    | _, .number n => n.toBits32?
    | _, _ => none

/-- A 64-bit float, by its bits. -/
def f64 : Shape UInt64 where
  write b := Bytes.le 8 b.toNat
  read := do return UInt64.ofNat (Bytes.leValue (← Reader.take 8))
  toJson b := .number (.binary64 b)
  ofJson
    | _, .number n => n.toBits64?
    | _, _ => none

/-- A text; the number of its bytes stands in front. -/
def text : Shape String where
  write s :=
    let b := Bytes.ofText s
    Binary.writeNat b.length ++ b
  read := do
    let b ← Reader.take (← Binary.readBelow UInt64.size)
    Reader.ofOption .badText (Bytes.toText? b)
  toJson s := .str s
  ofJson _ j := j.text?

/-- An identifier; in the binary form a string of sixteen bytes, in JSON its text. -/
def uuid : Shape Uuid where
  write u := 16 :: u.toBytes
  read := do
    let b ← Reader.take (← Binary.readBelow UInt64.size)
    if b.length = 16 then return Uuid.ofBytes b else Reader.fail .invalid
  toJson u := .str u.toText
  ofJson _ j := j.text?.bind Uuid.ofText?

/-- A value that may be missing. -/
def option (s : Shape α) : Shape (Option α) where
  write
    | none => [0]
    | some a => 1 :: s.write a
  read := do
    let mark ← Reader.byte
    if mark = 0 then return none
    else if mark = 1 then return some (← s.read)
    else Reader.fail .badOption
  toJson
    | none => .null
    | some a => s.toJson a
  ofJson
    | _, .null => some none
    | d, j => (s.ofJson d j).map some
  absent := some none

/-- The items of an array, if one more container may be opened. -/
def items? : Nat → Json → Option (Nat × List Json)
  | d + 1, .array vs => some (d, vs)
  | _, _ => none

/-- A list; the number of its items stands in front. -/
def list (s : Shape α) : Shape (List α) where
  write as := Binary.writeNat as.length ++ as.flatMap s.write
  read := do Reader.replicate (← Binary.readBelow UInt64.size) s.read
  toJson as := .array (as.map s.toJson)
  ofJson d j := do
    let (d, vs) ← items? d j
    vs.mapM (s.ofJson d)

end Shape
end EditionGateway
