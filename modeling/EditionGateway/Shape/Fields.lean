import EditionGateway.Json.Record
import EditionGateway.Shape.Basic

/-!
Records: fields with names, in order. In the binary form the fields follow one another. In JSON a
record is an object, whose unknown members are ignored, or an array of the values.
-/

namespace EditionGateway

open Binary (Reader)

/-- The layout of a record whose values are nested pairs. -/
structure Fields (α : Type) where
  names : List String
  write : α → Bytes
  read : Reader α
  toMembers : α → List (String × Json)
  ofValues : Nat → List (Option Json) → Option α

namespace Fields

variable {α β : Type}

/-- The value of a field, or the value it has when it is left out. -/
def value? (s : Shape α) (d : Nat) : Option Json → Option α
  | some v => s.ofJson d v
  | none => s.absent

/-- A record of one field. -/
def last (name : String) (s : Shape α) : Fields α where
  names := [name]
  write := s.write
  read := s.read
  toMembers a := [(name, s.toJson a)]
  ofValues
    | d, [v] => value? s d v
    | _, _ => none

/-- A field in front of others. -/
def field (name : String) (s : Shape α) (rest : Fields β) : Fields (α × β) where
  names := name :: rest.names
  write ab := s.write ab.1 ++ rest.write ab.2
  read := do
    let a ← s.read
    let b ← rest.read
    return (a, b)
  toMembers ab := (name, s.toJson ab.1) :: rest.toMembers ab.2
  ofValues
    | d, v :: vs => do return (← value? s d v, ← rest.ofValues d vs)
    | _, [] => none

def ofJson (f : Fields α) (d : Nat) (j : Json) : Option α := do
  let (d, vs) ← j.fieldValues? (f.names.map ([·])) false d
  f.ofValues d vs

def shape (f : Fields α) (build : α → β) (view : β → α) : Shape β where
  write b := f.write (view b)
  read := do return build (← f.read)
  toJson b := .obj (f.toMembers (view b))
  ofJson d j := (f.ofJson d j).map build

end Fields
end EditionGateway
