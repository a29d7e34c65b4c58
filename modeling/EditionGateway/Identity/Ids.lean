/-!
The numbers by which sessions, entities and connections are known.
-/

namespace EditionGateway

structure SessionId where
  value : UInt64
deriving DecidableEq, Repr, Hashable

def SessionId.label (i : SessionId) : String := "S-" ++ toString i.value.toNat

/-- An entity as the client knows it. -/
structure RuntimeId where
  value : UInt64
deriving DecidableEq, Repr

namespace RuntimeId

/-- The client's own player. -/
def player : RuntimeId := ⟨1⟩

def label (i : RuntimeId) : String := "#" ++ toString i.value.toNat

end RuntimeId

structure ConnectionId where
  value : UInt64
deriving DecidableEq, Repr

def ConnectionId.label (i : ConnectionId) : String := "conn-" ++ toString i.value.toNat

end EditionGateway
