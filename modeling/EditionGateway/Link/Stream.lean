import EditionGateway.Identity.Ids
import EditionGateway.Link.Frame

/-!
One end of a byte stream that carries packets in frames.
-/

namespace EditionGateway

/-- `compression` is how bodies are made shorter, from the threshold on. -/
structure StreamEnd where
  id : ConnectionId
  compression : Compression := .wrapped
  threshold : Threshold := none
  reader : FrameReader := {}
  intake : Intake := {}
  closed : Bool := false

/-- The reason that a closed connection gives when it is to send. -/
def ConnectionId.closedReason (i : ConnectionId) : String := i.label ++ " already closed"

namespace StreamEnd

def setThreshold (s : StreamEnd) (t : Threshold) : StreamEnd := { s with threshold := t.clamp }

/-- The bytes that go to the peer for a packet. -/
def send (s : StreamEnd) (p : Bytes) : Except LinkError Bytes :=
  if s.closed then .error (.closed s.id.closedReason) else Frame.encode s.compression s.threshold p

/-- Bytes of the peer come in. -/
def feed (s : StreamEnd) (b : Bytes) : StreamEnd :=
  { s with intake := { s.intake with bytes := s.intake.bytes ++ b } }

/-- The peer has written its last byte. -/
def finish (s : StreamEnd) : StreamEnd :=
  if s.intake.ahead = .more then { s with intake := { s.intake with ahead := .finished } } else s

/-- The peer has gone without reading all that was sent to it. -/
def breakOff (s : StreamEnd) : StreamEnd := { s with intake := { s.intake with ahead := .reset } }

/-- Receives the next packet; nothing if it has not come in yet. A closed end receives no more. -/
def receive (s : StreamEnd) : Option Received × StreamEnd :=
  if s.closed then (some .ended, s)
  else
    let (got, reader, intake) := s.reader.receive s.compression s.threshold s.intake
    (got, { s with reader, intake })

def close (s : StreamEnd) : StreamEnd := { s with closed := true }

end StreamEnd
end EditionGateway
