import EditionGateway.Shape.Fields

/-!
Variants: values of one of several named kinds. In the binary form the number of the kind stands in
front of its fields. In JSON a variant is an object with the name of the kind as its only key; a
kind without fields may be written as its name alone.
-/

namespace EditionGateway

open Binary (Reader)

/-- One kind of the values of a type. What yields an option is defined on the values of the kind;
`ofName` is the value that the name alone stands for. -/
structure Branch (α : Type) where
  name : String
  write? : α → Option Bytes
  read : Reader α
  toJson? : α → Option Json
  ofJson : Nat → Json → Option α
  ofName : Option α := none

namespace Branch

variable {α β : Type}

/-- A kind with fields. -/
def record (name : String) (f : Fields β) (build : β → α) (view : α → Option β) : Branch α where
  name := name
  write? a := (view a).map f.write
  read := do return build (← f.read)
  toJson? a := (view a).map fun b => .obj [(name, .obj (f.toMembers b))]
  ofJson d j := (f.ofJson d j).map build

/-- A kind with one value. -/
def unit (name : String) (value : α) (is : α → Bool) : Branch α where
  name := name
  write? a := if is a then some [] else none
  read := pure value
  toJson? a := if is a then some (.str name) else none
  ofJson
    | _, .null => some value
    | _, _ => none
  ofName := some value

/-- The number of the first branch that is defined on a value, from `i` on, and its bytes. -/
def writeFrom (a : α) : Nat → List (Branch α) → Bytes
  | _, [] => []
  | i, b :: bs =>
    match b.write? a with
    | some payload => Binary.writeNat i ++ payload
    | none => writeFrom a (i + 1) bs

end Branch

namespace Shape

variable {α : Type}

def variant (branches : List (Branch α)) : Shape α where
  write a := Branch.writeFrom a 0 branches
  read := do
    let i ← Binary.readBelow UInt32.size
    match branches[i]? with
    | some b => b.read
    | none => Reader.fail .invalid
  toJson a := (branches.findSome? fun b => b.toJson? a).getD .null
  ofJson
    | _, .text (some name) => (branches.find? fun b => b.name = name).bind Branch.ofName
    | d + 1, .object [(some name, v)] =>
      (branches.find? fun b => b.name = name).bind fun b => b.ofJson d v
    | _, _ => none

/-- A type whose values are named one by one. -/
def enumeration [DecidableEq α] (values : List (String × α)) : Shape α :=
  variant (values.map fun v => Branch.unit v.1 v.2 (· = v.2))

end Shape
end EditionGateway
