import EditionGateway.Link.Memory
import EditionGateway.Link.Stream

/-!
A byte stream with both its ends: what one end sends is at once there for the other one to read.
-/

namespace EditionGateway

structure StreamPair where
  first : StreamEnd := { id := ⟨1⟩ }
  second : StreamEnd := { id := ⟨2⟩ }

namespace StreamPair

/-- A new stream whose ends make bodies shorter in this way. -/
def opened (z : Compression) : StreamPair where
  first := { id := ⟨1⟩, compression := z }
  second := { id := ⟨2⟩, compression := z }

def get (l : StreamPair) : LinkEnd → StreamEnd
  | .first => l.first
  | .second => l.second

def modify (l : StreamPair) (e : LinkEnd) (f : StreamEnd → StreamEnd) : StreamPair :=
  match e with
  | .first => { l with first := f l.first }
  | .second => { l with second := f l.second }

/-- Sends from an end to the other one. -/
def send (l : StreamPair) (e : LinkEnd) (p : Bytes) : Except LinkError StreamPair :=
  ((l.get e).send p).map fun b => l.modify e.other (·.feed b)

/-- Receives at an end; nothing if there is nothing yet. -/
def receive (l : StreamPair) (e : LinkEnd) : Option Received × StreamPair :=
  let (got, s) := (l.get e).receive
  (got, l.modify e fun _ => s)

def setThreshold (l : StreamPair) (e : LinkEnd) (t : Threshold) : StreamPair :=
  l.modify e (·.setThreshold t)

/-- Stops writing at an end, which the other end sees. -/
def close (l : StreamPair) (e : LinkEnd) : StreamPair :=
  (l.modify e (·.close)).modify e.other (·.finish)

/-- Takes an end away. The other end sees whether anything was left unread. -/
def drop (l : StreamPair) (e : LinkEnd) : StreamPair :=
  let s := l.get e
  if s.intake.bytes.isEmpty then l.close e else (l.close e).modify e.other (·.breakOff)

end StreamPair
end EditionGateway
