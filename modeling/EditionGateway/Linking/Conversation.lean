import EditionGateway.Backend.Layout
import EditionGateway.Backend.Version
import EditionGateway.Gateway.Config
import EditionGateway.Link.StreamPair

/-!
Talking to the backend over one end of a stream: whole packets go out and come in.
-/

namespace EditionGateway

/-- The packet that opens every conversation with the backend. -/
def RemoteConfig.greeting (r : RemoteConfig) (next : Backend.NextState) : Backend.Packet :=
  .handshake Backend.protocolVersion r.address r.portNumber next

namespace StreamEnd

/-- The bytes that carry a packet to the backend. -/
def sendPacket (s : StreamEnd) (p : Backend.Packet) : Except BackendError Bytes :=
  match Backend.Packet.shape.encode p with
  | .error e => .error (.protocolMismatch e.message)
  | .ok b => (s.send b).mapError .link

/-- The next packet of the backend, or the end of the link; nothing if it has not come in yet. -/
def receivePacket (s : StreamEnd) :
    Option (Except BackendError (Option Backend.Packet)) × StreamEnd :=
  match s.receive with
  | (none, s) => (none, s)
  | (some .ended, s) => (some (.ok none), s)
  | (some (.failed e), s) => (some (.error (.link e)), s)
  | (some (.packet b), s) =>
    match Backend.Packet.shape.decode b with
    | .ok p => (some (.ok (some p)), s)
    | .error e => (some (.error (.protocolMismatch e.message)), s)

end StreamEnd

/-- Sends packets from the first end, up to the first one that cannot be sent. -/
def StreamPair.sendPackets (l : StreamPair) :
    List Backend.Packet → Except BackendError Unit × StreamPair
  | [] => (.ok (), l)
  | p :: ps =>
    match l.first.sendPacket p with
    | .ok b => (l.modify .second (·.feed b)).sendPackets ps
    | .error e => (.error e, l)

/-- How far a conversation has come: it waits, or it goes on and sends some bytes, or it has come to
its result. -/
inductive Progress (α : Type)
  | waiting
  | sent (b : Bytes)
  | done (result : Except BackendError α)

/-- A conversation under way: `advance` handles what comes in next. -/
structure Conversation (τ α : Type) where
  state : τ
  advance : τ → StreamEnd → Progress α × τ × StreamEnd

namespace Conversation

variable {τ α : Type}

/-- Goes on, in at most `fuel` steps, until the backend has to say something or there is a result.
The conversation takes place at the first end. -/
def run (c : Conversation τ α) : Nat → StreamPair →
    Option (Except BackendError α) × Conversation τ α × StreamPair
  | 0, l => (none, c, l)
  | fuel + 1, l =>
    match c.advance c.state l.first with
    | (.waiting, state, s) => (none, { c with state }, { l with first := s })
    | (.sent b, state, s) =>
      run { c with state } fuel { first := s, second := l.second.feed b }
    | (.done r, state, s) => (some r, { c with state }, { l with first := s })

end Conversation
end EditionGateway
