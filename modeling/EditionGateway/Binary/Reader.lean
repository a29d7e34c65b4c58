import EditionGateway.Bytes

/-!
Readers: functions from a byte string to a value and the bytes after it.
-/

namespace EditionGateway.Binary

/-- Why bytes are not the binary form of a value, or a value has no binary form. -/
inductive Fault
  | endOfInput
  | badText
  | badFlag
  | badOption
  | tooLarge
  | invalid
deriving DecidableEq, Repr

def Fault.message : Fault → String
  | .endOfInput => "unexpected end of input"
  | .badText => "text is not UTF-8"
  | .badFlag => "a flag is neither 0 nor 1"
  | .badOption => "a presence mark is neither 0 nor 1"
  | .tooLarge => "the size limit has been reached"
  | .invalid => "value out of range"

def Reader (α : Type) : Type := Bytes → Except Fault (α × Bytes)

namespace Reader

instance : Monad Reader where
  pure a := fun s => .ok (a, s)
  bind r f := fun s =>
    match r s with
    | .ok (a, t) => f a t
    | .error e => .error e

variable {α β : Type}

def fail (e : Fault) : Reader α := fun _ => .error e

def byte : Reader UInt8
  | [] => .error .endOfInput
  | b :: s => .ok (b, s)

/-- The next `n` bytes. -/
def take (n : Nat) : Reader Bytes := fun s =>
  let front := s.take n
  if front.length = n then .ok (front, s.drop n) else .error .endOfInput

/-- `n` values one after the other, behind those of `done`, which are in reverse. -/
def repeatInto (r : Reader α) : Nat → List α → Reader (List α)
  | 0, done, s => .ok (done.reverse, s)
  | n + 1, done, s =>
    match r s with
    | .ok (a, t) => repeatInto r n (a :: done) t
    | .error e => .error e

/-- `n` values one after the other. -/
def replicate (n : Nat) (r : Reader α) : Reader (List α) := repeatInto r n []

/-- The value, if a condition holds of it. -/
def ofOption (e : Fault) : Option α → Reader α
  | some a => pure a
  | none => fail e

/-- The value of a byte string that holds nothing else. -/
def complete (r : Reader α) (s : Bytes) : Except Fault α :=
  match r s with
  | .ok (a, []) => .ok a
  | .ok (_, _ :: _) => .error .invalid
  | .error e => .error e

@[simp] theorem pure_apply (a : α) (s : Bytes) : (pure a : Reader α) s = .ok (a, s) := rfl

theorem bind_apply (r : Reader α) (f : α → Reader β) (s : Bytes) :
    (r >>= f) s = match r s with
      | .ok (a, t) => f a t
      | .error e => .error e := rfl

theorem bind_of_ok {r : Reader α} {f : α → Reader β} {s t : Bytes} {a : α} (h : r s = .ok (a, t)) :
    (r >>= f) s = f a t := by
  rw [bind_apply, h]

end Reader
end EditionGateway.Binary
