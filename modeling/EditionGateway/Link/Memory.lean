import EditionGateway.Link.Frame

/-!
A link inside the process: two ends with a queue of packets for each. Closing concerns both ends;
packets that were sent before can still be received. The closing and the queues are looked at one after
the other and under no lock, so each look is a step of its own.
-/

namespace EditionGateway

inductive LinkEnd
  | first
  | second
deriving DecidableEq, Repr

def LinkEnd.other : LinkEnd → LinkEnd
  | .first => .second
  | .second => .first

/-- The packets that wait at one end, whether nobody is left who could send more, and whether the end
is gone. -/
structure MemoryInbox where
  packets : List Bytes := []
  ended : Bool := false
  gone : Bool := false
deriving Repr

structure MemoryLink where
  first : MemoryInbox := {}
  second : MemoryInbox := {}
  closed : Bool := false
deriving Repr

namespace MemoryLink

def inbox (l : MemoryLink) : LinkEnd → MemoryInbox
  | .first => l.first
  | .second => l.second

def setInbox (l : MemoryLink) (e : LinkEnd) (i : MemoryInbox) : MemoryLink :=
  match e with
  | .first => { l with first := i }
  | .second => { l with second := i }

/-- Whether a packet may be sent, as far as the closing is concerned. -/
def check (l : MemoryLink) : Except LinkError Unit :=
  if l.closed then .error (.closed "memory link closed") else .ok ()

/-- Puts a packet of an end into the queue of the other one, closed or not. -/
def push (l : MemoryLink) (e : LinkEnd) (p : Bytes) : Except LinkError MemoryLink :=
  let i := l.inbox e.other
  if i.gone then .error (.closed "peer dropped")
  else .ok (l.setInbox e.other { i with packets := i.packets ++ [p] })

/-- Sends from an end to the other one. -/
def send (l : MemoryLink) (e : LinkEnd) (p : Bytes) : Except LinkError MemoryLink := do
  l.check
  l.push e p

/-- Takes the first packet that waits at an end. -/
def take (l : MemoryLink) (e : LinkEnd) : Option Bytes × MemoryLink :=
  let i := l.inbox e
  match i.packets with
  | p :: r => (some p, l.setInbox e { i with packets := r })
  | [] => (none, l)

/-- What the queue of an end has to say: a packet, that no more will come, or nothing. -/
def look (l : MemoryLink) (e : LinkEnd) : Option Received × MemoryLink :=
  match l.take e with
  | (some p, l) => (some (.packet p), l)
  | (none, l) => (if (l.inbox e).ended then some .ended else none, l)

/-- What an end is told that has found the link closed. -/
def lastLook (l : MemoryLink) (e : LinkEnd) : Received × MemoryLink :=
  match l.take e with
  | (some p, l) => (.packet p, l)
  | (none, l) => (.ended, l)

/-- Receives at an end; nothing if there is nothing yet. -/
def receive (l : MemoryLink) (e : LinkEnd) : Option Received × MemoryLink :=
  match l.look e with
  | (some r, l) => (some r, l)
  | (none, l) =>
    if l.closed then
      let (r, l) := l.lastLook e
      (some r, l)
    else (none, l)

def close (l : MemoryLink) : MemoryLink := { l with closed := true }

/-- An end that goes away sends no more. -/
def leave (l : MemoryLink) (e : LinkEnd) : MemoryLink :=
  l.setInbox e.other { l.inbox e.other with ended := true }

/-- What waits at an end goes away with it. -/
def discard (l : MemoryLink) (e : LinkEnd) : MemoryLink :=
  l.setInbox e { l.inbox e with packets := [], gone := true }

/-- Takes an end away. -/
def drop (l : MemoryLink) (e : LinkEnd) : MemoryLink := (l.leave e).discard e

end MemoryLink
end EditionGateway
