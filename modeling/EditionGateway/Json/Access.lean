import EditionGateway.Json.Basic

/-!
JSON values as values of other types, and the other way round. Looking into a value never fails:
what is not there counts as `null`, and a value of another kind as the empty or zero one.
-/

namespace EditionGateway
namespace Json

instance : Coe String Json := ⟨.str⟩
instance : Coe Bool Json := ⟨.bool⟩
instance : Coe Nat Json := ⟨.ofNat⟩
instance : Coe Int Json := ⟨.ofInt⟩
instance : Coe UInt8 Json := ⟨fun n => .ofNat n.toNat⟩
instance : Coe UInt16 Json := ⟨fun n => .ofNat n.toNat⟩
instance : Coe UInt32 Json := ⟨fun n => .ofNat n.toNat⟩
instance : Coe UInt64 Json := ⟨fun n => .ofNat n.toNat⟩
instance : Coe Int32 Json := ⟨fun i => .ofInt i.toInt⟩
instance : Coe Int64 Json := ⟨fun i => .ofInt i.toInt⟩

/-- A missing value is `null`. -/
instance {α : Type} [Coe α Json] : Coe (Option α) Json := ⟨fun
  | some a => Coe.coe a
  | none => .null⟩

instance {α : Type} [Coe α Json] : Coe (List α) Json := ⟨fun as => .array (as.map Coe.coe)⟩

/-- The value of the first member with a key. -/
def get? (j : Json) (key : String) : Option Json :=
  match j with
  | .object ms => (ms.find? fun m => m.1 = some key).map (·.2)
  | _ => none

def get (j : Json) (key : String) : Json := (j.get? key).getD .null

def has (j : Json) (key : String) : Bool := (j.get? key).isSome

def isNull : Json → Bool
  | .null => true
  | _ => false

/-- Nothing for `null`. -/
def nonNull (j : Json) : Option Json := if j.isNull then none else some j

def int (j : Json) : Int := j.int?.getD 0

def nat (j : Json) : Nat := j.int.toNat

def toText (j : Json) : String := j.text?.getD ""

def flag (j : Json) : Bool := j.bool?.getD false

def items : Json → List Json
  | .array vs => vs
  | _ => []

def natAt (j : Json) (key : String) : Nat := (j.get key).nat

def textAt (j : Json) (key : String) : String := (j.get key).toText

def natAt? (j : Json) (key : String) : Option Nat := (j.get key).nonNull.map nat

end Json
end EditionGateway
