import EditionGateway.Conversion.Error
import EditionGateway.Session.Context

/-!
What a conversion does with the memory of a session, one step after the other. A step can fail; what has
been changed before it stays changed.
-/

namespace EditionGateway.Conversion

/-- A value or a failure, and what the session remembers then. -/
def Update (α : Type) := SessionContext → Except ConversionError α × SessionContext

namespace Update

variable {α β : Type}

/-- A value, and what is to be remembered. -/
def ok (r : α × SessionContext) : Update α := fun _ => (.ok r.1, r.2)

def error (e : ConversionError) : Update α := fun c => (.error e, c)

instance : Monad Update where
  pure a := fun c => (.ok a, c)
  bind u f := fun c =>
    match u c with
    | (.ok a, c) => f a c
    | (.error e, c) => (.error e, c)

/-- Looks something up. -/
def read (f : SessionContext → α) : Update α := fun c => (.ok (f c), c)

/-- Changes what is remembered. -/
def change (f : SessionContext → α × SessionContext) : Update α := fun c =>
  let (a, c) := f c
  (.ok a, c)

def set (f : SessionContext → SessionContext) : Update Unit := change fun c => ((), f c)

/-- Goes on with the value, if there is one. -/
def given (a? : Option α) (e : ConversionError) : Update α :=
  match a? with
  | some a => pure a
  | none => error e

def require (p : Prop) [Decidable p] (e : ConversionError) : Update Unit :=
  if p then pure () else error e

@[simp] theorem ok_apply (r : α × SessionContext) (c : SessionContext) : ok r c = (.ok r.1, r.2) := rfl

@[simp] theorem error_apply (e : ConversionError) (c : SessionContext) :
    (error e : Update α) c = (.error e, c) := rfl

@[simp] theorem pure_apply (a : α) (c : SessionContext) : (pure a : Update α) c = (.ok a, c) := rfl

@[simp] theorem read_apply (f : SessionContext → α) (c : SessionContext) :
    read f c = (.ok (f c), c) := rfl

@[simp] theorem change_apply (f : SessionContext → α × SessionContext) (c : SessionContext) :
    change f c = (.ok (f c).1, (f c).2) := rfl

@[simp] theorem set_apply (f : SessionContext → SessionContext) (c : SessionContext) :
    set f c = (.ok (), f c) := rfl

theorem bind_of_ok {u : Update α} {f : α → Update β} {c c' : SessionContext} {a : α}
    (h : u c = (.ok a, c')) : (u >>= f) c = f a c' := by
  show (match u c with | (.ok a, c) => f a c | (.error e, c) => (.error e, c)) = _
  rw [h]

theorem bind_of_error {u : Update α} {f : α → Update β} {c c' : SessionContext} {e : ConversionError}
    (h : u c = (.error e, c')) : (u >>= f) c = (.error e, c') := by
  show (match u c with | (.ok a, c) => f a c | (.error e, c) => (.error e, c)) = _
  rw [h]

end Update
end EditionGateway.Conversion
