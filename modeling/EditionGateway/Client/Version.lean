/-!
The versions of the client protocol that the gateway speaks.
-/

namespace EditionGateway.Client

structure Version where
  protocol : UInt32
  name : String
deriving DecidableEq, Repr

namespace Version

def newest : Version := ⟨748, "1.21.40"⟩

/-- The supported versions, oldest first. -/
def supported : List Version := [⟨712, "1.21.20"⟩, ⟨729, "1.21.30"⟩, newest]

def oldest : Version := ⟨712, "1.21.20"⟩

/-- The supported version with exactly this protocol number. -/
def select? (protocol : UInt32) : Option Version := supported.find? (·.protocol = protocol)

end Version
end EditionGateway.Client
