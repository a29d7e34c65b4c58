/-!
The states of a session, in the order in which it passes through them.
-/

namespace EditionGateway

inductive Lifecycle
  | connecting
  | awaitingAuth
  | awaitingHandshakeAck
  | linkingBackend
  | established
  | closing
  | closed
deriving DecidableEq, Repr

namespace Lifecycle

def all : List Lifecycle :=
  [.connecting, .awaitingAuth, .awaitingHandshakeAck, .linkingBackend, .established, .closing,
    .closed]

def rank : Lifecycle → Nat
  | .connecting => 0
  | .awaitingAuth => 1
  | .awaitingHandshakeAck => 2
  | .linkingBackend => 3
  | .established => 4
  | .closing => 5
  | .closed => 6

instance : LT Lifecycle := ⟨fun a b => a.rank < b.rank⟩

instance (a b : Lifecycle) : Decidable (a < b) := Nat.decLt a.rank b.rank

def next? : Lifecycle → Option Lifecycle
  | .connecting => some .awaitingAuth
  | .awaitingAuth => some .awaitingHandshakeAck
  | .awaitingHandshakeAck => some .linkingBackend
  | .linkingBackend => some .established
  | .established => some .closing
  | .closing => some .closed
  | .closed => none

/-- A session moves to the next state, or from any earlier one to `closing`. -/
def canBecome (s target : Lifecycle) : Bool :=
  if target = .closing then s < .closing else s.next? = some target

/-- The state after an attempt to move to `target`. -/
def moveTo (s target : Lifecycle) : Lifecycle := if s.canBecome target then target else s

def isTerminal (s : Lifecycle) : Bool := s = .closed

def isLinked (s : Lifecycle) : Bool := s = .established

def isClosing (s : Lifecycle) : Bool := ¬ s < .closing

def label : Lifecycle → String
  | .connecting => "CONNECTING"
  | .awaitingAuth => "AWAITING_AUTH"
  | .awaitingHandshakeAck => "AWAITING_HANDSHAKE_ACK"
  | .linkingBackend => "LINKING_DOWNSTREAM"
  | .established => "ESTABLISHED"
  | .closing => "CLOSING"
  | .closed => "CLOSED"

end Lifecycle
end EditionGateway
