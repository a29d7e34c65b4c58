import EditionGateway.Gateway.Host
import EditionGateway.Link.Memory

/-!
A network whose links are queues in memory. How the attempts to reach the backend end is decided
from outside.
-/

namespace EditionGateway

/-- What becomes of an attempt to reach the backend. -/
inductive BackendMode
  | accepts
  | hangs
  | fails (e : BackendError)
deriving Repr

/-- A link, and the thresholds that were set on it. The gateway has the first end. `wasClosed` says
that the far end has seen it closed. -/
structure InProcessLink where
  link : MemoryLink := {}
  thresholds : List Nat := []
  wasClosed : Bool := false

/-- What has happened at the far end of a link since it was looked at. -/
structure LinkNews where
  packets : List Bytes
  thresholds : List Nat
  closed : Bool

structure InProcess where
  mode : BackendMode := .accepts
  clients : Table SessionId InProcessLink := []
  backends : Table SessionId InProcessLink := []
  attempts : List String := []

namespace InProcessLink

def receive (l : InProcessLink) (e : LinkEnd) : Option Received × InProcessLink :=
  let (got, link) := l.link.receive e
  (got, { l with link })

def send (l : InProcessLink) (e : LinkEnd) (p : Bytes) : Except LinkError Unit × InProcessLink :=
  match l.link.send e p with
  | .ok link => (.ok (), { l with link })
  | .error err => (.error err, l)

def close (l : InProcessLink) : InProcessLink := { l with link := l.link.close }

/-- Looks at the far end, and takes the packets that have come. -/
def look (l : InProcessLink) : LinkNews × InProcessLink :=
  let inbox := l.link.inbox .second
  (⟨inbox.packets, l.thresholds, l.link.closed && !l.wasClosed⟩, {
    link := l.link.setInbox .second { inbox with packets := [] }
    thresholds := []
    wasClosed := l.link.closed })

/-- The far end sends packets; the error of the last one that could not be sent, if there is one. -/
def feed (bs : List Bytes) (l : InProcessLink) : Option LinkError × InProcessLink :=
  bs.foldl
    (fun (failed, l) b =>
      match l.send .second b with
      | (.ok _, l) => (failed, l)
      | (.error e, l) => (some e, l))
    (none, l)

end InProcessLink

namespace InProcess

def onClient {α : Type} (id : SessionId) (f : InProcessLink → α × InProcessLink) (n : InProcess) :
    α × InProcess :=
  let (a, l) := f ((n.clients.get? id).getD {})
  (a, { n with clients := n.clients.modify id fun _ => l })

def onBackend {α : Type} (id : SessionId) (f : InProcessLink → α × InProcessLink) (n : InProcess) :
    α × InProcess :=
  let (a, l) := f ((n.backends.get? id).getD {})
  (a, { n with backends := n.backends.modify id fun _ => l })

instance : Network InProcess where
  receiveClient id := onClient id (·.receive .first)
  sendClient id b := onClient id (·.send .first b)
  compressClient id t n :=
    (onClient id (fun l => ((), { l with thresholds := l.thresholds ++ [t] })) n).2
  closeClient id n := (onClient id (fun l => ((), l.close)) n).2
  connect _ c n := { n with attempts := n.attempts ++ [c.username] }
  connected id n :=
    match n.mode with
    | .accepts => (some (.ok ()), { n with backends := n.backends.insert id {} })
    | .hangs => (none, n)
    | .fails e => (some (.error e), n)
  receiveBackend id := onBackend id (·.receive .first)
  sendBackend id b := onBackend id (·.send .first b)
  closeBackend id n := (onBackend id (fun l => ((), l.close)) n).2
  release _ n := n

end InProcess
end EditionGateway
