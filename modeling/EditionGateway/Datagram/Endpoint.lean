import EditionGateway.Datagram.Connection
import EditionGateway.Datagram.Reassembly

/-!
One socket with all its peers. A listening endpoint answers pings and opens connections; the
endpoint of a client has one peer, the server.
-/

namespace EditionGateway
namespace Datagram

def minMtu : UInt16 := 576

def defaultMtu : UInt16 := 1400

/-- This many opened connections may wait to be accepted. -/
def backlogCapacity : Nat := 128

/-- What an endpoint knows of the peer at an address: the connection that its packets go to. -/
structure Peer where
  connection : ConnectionId
  mtu : UInt16
  reassembly : Reassembly := {}
deriving Repr

/-- `compression` is that of the connections that are opened. -/
structure Endpoint where
  guid : UInt64
  mtu : UInt16
  listening : Bool
  compression : Compression := .bare
  running : Bool := true
  peers : Table Address Peer := []
  connections : Table ConnectionId Connection := []
  backlog : List ConnectionId := []
  nextId : UInt64 := 1

namespace Endpoint

/-- An endpoint that waits for clients. -/
def listen (guid : UInt64) (mtu : UInt16) (compression : Compression := .bare) : Endpoint :=
  { guid, mtu := max mtu minMtu, listening := true, compression }

/-- The endpoint of a client that has been let in by a server. -/
def ofServer (address : Address) (guid : UInt64) (mtu firstSplit : UInt16)
    (compression : Compression := .bare) : Endpoint where
  guid := guid
  mtu := mtu
  listening := false
  compression := compression
  peers := [(address, ⟨⟨1⟩, mtu, {}⟩)]
  connections := [(⟨1⟩, { id := ⟨1⟩, address, mtu, nextSplit := firstSplit, compression })]
  nextId := 2

def removePeer (e : Endpoint) (address : Address) : Endpoint :=
  { e with peers := e.peers.erase address }

/-- A datagram goes out unless it is too long for the network. -/
def reply (b : Bytes) : Option Bytes := if b.length ≤ maxLength then some b else none

/-- A packet or an error for a connection. A peer whose connection is gone is forgotten. -/
def deliver (e : Endpoint) (address : Address) (id : ConnectionId) (got : Except LinkError Bytes) :
    Endpoint :=
  if e.connections.contains id then
    { e with connections := e.connections.modify id fun c => c.deliver got }
  else e.removePeer address

/-- A fragment from a peer. One that is out of order concerns this peer only. -/
def onFragment (e : Endpoint) (address : Address) (b : Bytes) : Endpoint :=
  match e.peers.get? address with
  | none => e
  | some peer =>
    let keep (r : Reassembly) : Endpoint :=
      { e with peers := e.peers.modify address fun p => { p with reassembly := r } }
    match Scan.fragment.eval b with
    | .error err => e.deliver address peer.connection (.error err)
    | .ok f =>
      match peer.reassembly.accept f with
      | (.error m, r) => (keep r).deliver address peer.connection (.error (.malformed m))
      | (.ok none, r) => keep r
      | (.ok (some (seq, body)), r) =>
        match r.deliver seq with
        | (false, r) => keep r
        | (true, r) => (keep r).deliver address peer.connection (.ok body)

/-- A client wants a connection. One that has it already is answered again, with the size that was
agreed on now; a new one is refused while too many wait to be accepted. -/
def onOpen (e : Endpoint) (address : Address) (firstSplit : UInt16) (version : UInt8)
    (wanted : UInt16) : Option Bytes × Endpoint :=
  if version ≠ transportVersion then (reply (incompatible e.guid), e)
  else
    let mtu := if wanted < minMtu then minMtu else min wanted e.mtu
    let answer := reply (opened e.guid mtu)
    if e.peers.contains address then (answer, e)
    else if backlogCapacity ≤ e.backlog.length then (none, e)
    else
      let id : ConnectionId := ⟨e.nextId⟩
      (answer, { e with
        nextId := e.nextId + 1
        peers := e.peers.insert address ⟨id, mtu, {}⟩
        connections := e.connections.insert id
          { id, address, mtu, nextSplit := firstSplit, compression := e.compression }
        backlog := e.backlog ++ [id] })

/-- The version and the size in an open request. -/
def openFields : Scan (UInt8 × UInt16) := do
  let version ← Scan.number 1
  let mtu ← Scan.number 2
  return (UInt8.ofNat version, UInt16.ofNat mtu)

/-- The time in a ping. -/
def pingTime : Scan UInt64 := do
  let time ← Scan.number 8
  let _ ← Scan.number 8
  return UInt64.ofNat time

/-- A datagram comes in: what is sent back to its source, and the endpoint afterwards.
`advertisement` is what pings are answered with at the moment. -/
def handle (e : Endpoint) (advertisement : Option String) (firstSplit : UInt16)
    (address : Address) : Bytes → Option Bytes × Endpoint
  | [] => (none, e)
  | mark :: b =>
    if ¬ e.running then (none, e)
    else if mark = pingMark then
      match e.listening, (pingTime.eval b).toOption, advertisement with
      | true, some time, some text => (reply (pong time e.guid text), e)
      | _, _, _ => (none, e)
    else if mark = openMark then
      match e.listening, (openFields.eval b).toOption with
      | true, some (version, mtu) => e.onOpen address firstSplit version mtu
      | _, _ => (none, e)
    else if mark = fragmentMark then (none, e.onFragment address b)
    else if mark = disconnectMark then (none, e.removePeer address)
    else (none, e)

/-- The next opened connection; nothing if there is none yet. -/
def accept (e : Endpoint) : Option (Except LinkError Connection) × Endpoint :=
  match e.backlog with
  | id :: r => ((e.connections.get? id).map .ok, { e with backlog := r })
  | [] => (if e.running then none else some (.error .shutdown), e)

/-- A connection is fed as long as some peer's packets go to it. -/
def isFed (e : Endpoint) (id : ConnectionId) : Bool :=
  e.peers.values.any fun p => p.connection = id

def receive (e : Endpoint) (id : ConnectionId) : Option Received × Endpoint :=
  match e.connections.get? id with
  | none => (some .ended, e)
  | some c =>
    let (got, c) := c.receive (e.isFed id)
    (got, { e with connections := e.connections.modify id fun _ => c })

def send (e : Endpoint) (id : ConnectionId) (p : Bytes) :
    Except LinkError (List Fragment) × Endpoint :=
  match e.connections.get? id with
  | none => (.error (.closed id.closedReason), e)
  | some c =>
    let (sent, c) := c.send p
    (sent, { e with connections := e.connections.modify id fun _ => c })

def setThreshold (e : Endpoint) (id : ConnectionId) (t : Threshold) : Endpoint :=
  { e with connections := e.connections.modify id fun c => c.setThreshold t }

/-- Closes a connection: the peer at its address is forgotten and told so, if there is one. A client
stops listening to its socket. -/
def close (e : Endpoint) (id : ConnectionId) : Option Bytes × Endpoint :=
  match e.connections.get? id with
  | none => (none, e)
  | some c =>
    if c.closed then (none, e)
    else
      let known := e.peers.contains c.address
      let e := { e.removePeer c.address with
        connections := e.connections.modify id fun c => { c with closed := true }
        running := e.running && e.listening }
      (if known then some disconnect else none, e)

/-- Gives a connection up: the peer at its address is forgotten, but not told. -/
def drop (e : Endpoint) (id : ConnectionId) : Endpoint :=
  match e.connections.get? id with
  | none => e
  | some c => { e.removePeer c.address with
      connections := e.connections.erase id
      running := e.running && e.listening }

/-- Stops; the addresses of all peers, who are told so. -/
def shutdown (e : Endpoint) : List Address × Endpoint :=
  (e.peers.keys, { e with peers := [], running := false })

end Endpoint
end Datagram
end EditionGateway
