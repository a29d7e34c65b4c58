import EditionGateway.Json.Float

/-!
Records in JSON: an object with a member for each field, or an array of the values in order. Members
of other names are ignored, whatever they hold; a field that occurs twice is an error.
-/

namespace EditionGateway.Json

/-- How many containers may be open at a time, ignored members not counted. -/
def maxDepth : Nat := 127

/-- A field has at most one member, under any of its names. -/
def isSingle (ms : List (String × Json)) (names : List String) : Bool :=
  (ms.filter fun m => names.contains m.1).length ≤ 1

def member? (ms : List (String × Json)) (names : List String) : Option Json :=
  (ms.find? fun m => names.contains m.1).map (·.2)

/-- The values of the fields of a record, each known by one or more names, and how many containers
may still be opened inside it. An array gives all values, or only the first ones if `mayEndEarly`.
-/
def fieldValues? (fields : List (List String)) (mayEndEarly : Bool) :
    Nat → Json → Option (Nat × List (Option Json))
  | d + 1, .array vs =>
    if vs.length = fields.length ∨ (mayEndEarly ∧ vs.length < fields.length) then
      some (d, vs.map some ++ List.replicate (fields.length - vs.length) none)
    else none
  | d + 1, .object ms =>
    match (Json.object ms).members? with
    | some ms => if fields.all (isSingle ms) then some (d, fields.map (member? ms)) else none
    | none => none
  | _, _ => none

/-- A member that may be left out or be `null`. -/
def optional? {α : Type} (read : Json → Option α) : Option Json → Option (Option α)
  | none => some none
  | some .null => some none
  | some v => (read v).map some

/-- A member that has a default when it is left out. -/
def orDefault? {α : Type} (read : Json → Option α) (default : α) : Option Json → Option α
  | none => some default
  | some v => read v

mutual

/-- The value can be kept: all its literals spell texts, all its numbers are in the range of floats,
and at most `d` containers are open at a time. -/
def isStrict (d : Nat) : Json → Bool
  | .null => true
  | .bool _ => true
  | .number n => n.toBits64?.isSome
  | .text s => s.isSome
  | .array vs => 0 < d && allStrict (d - 1) vs
  | .object ms => 0 < d && allMembersStrict (d - 1) ms

def allStrict (d : Nat) : List Json → Bool
  | [] => true
  | v :: vs => isStrict d v && allStrict d vs

def allMembersStrict (d : Nat) : List (Literal × Json) → Bool
  | [] => true
  | (k, v) :: ms => k.isSome && isStrict d v && allMembersStrict d ms

end

end EditionGateway.Json
