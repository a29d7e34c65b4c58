import EditionGateway.Datagram.Opening
import EditionGateway.Gateway.Network
import EditionGateway.Linking.Login

/-!
A network inside one machine: clients over datagrams, the backend over streams. What is sent arrives
at once, complete and in order.
-/

namespace EditionGateway

/-- The link of a session to the backend; `login` is under way as long as it is there. The gateway
has the first end. -/
structure BackendLink where
  pair : StreamPair := {}
  login : Option (Except BackendError Login)

/-- `refused` says that nobody listens where the backend should be. `waiting` are the links that the
backend has not taken yet, `taken` the others, both oldest first. -/
structure Loopback where
  remote : RemoteConfig
  identity : IdentityService := .offline
  refused : Bool
  endpoint : Datagram.Endpoint
  clients : Table Address Datagram.Endpoint := []
  connections : Table SessionId ConnectionId := []
  links : Table SessionId BackendLink := []
  waiting : List SessionId := []
  taken : List SessionId := []

namespace Loopback

/-- The address at which clients find the gateway. -/
def gatewayAddress : Address := "127.0.0.1:19132"

/-- Datagrams of the gateway reach a client. -/
def deliver (n : Loopback) (client : Address) (bs : List Bytes) : Loopback :=
  { n with clients := n.clients.modify client fun e =>
      bs.foldl (fun e b => (e.handle none 0 gatewayAddress b).2) e }

/-- Datagrams of a client reach the gateway. -/
def arrive (n : Loopback) (client : Address) (bs : List Bytes) : Loopback :=
  bs.foldl
    (fun n b =>
      let (answer, endpoint) := n.endpoint.handle none 0 client b
      { n with endpoint }.deliver client answer.toList)
    n

/-! ### The client's side -/

/-- A new client connects, if the gateway lets it in. -/
def join (n : Loopback) (client : Address) (mtu : UInt16) :
    Except LinkError Datagram.Agreement × Loopback :=
  let (answer, endpoint) := n.endpoint.handle none 0 client (Datagram.openRequest mtu)
  let (r, _) := Datagram.openWith gatewayAddress 1 (answer.toList.map .server)
  match r with
  | .error e => (.error e, { n with endpoint })
  | .ok a =>
    (.ok a, { n with
      endpoint
      clients := n.clients.insert client (.ofServer gatewayAddress a.guid a.mtu 0) })

/-- The number of a client's only connection. -/
def clientConnection : ConnectionId := ⟨1⟩

/-- Does something at a client's endpoint. -/
def atClient {α : Type} (n : Loopback) (client : Address)
    (f : Datagram.Endpoint → α × Datagram.Endpoint) : α × Loopback :=
  let (a, e) := f ((n.clients.get? client).getD (.ofServer gatewayAddress 0 0 0))
  (a, { n with clients := n.clients.modify client fun _ => e })

def clientSend (n : Loopback) (client : Address) (b : Bytes) : Except LinkError Unit × Loopback :=
  match n.atClient client (·.send clientConnection b) with
  | (.ok fs, n) => (.ok (), n.arrive client (fs.map (·.encode)))
  | (.error e, n) => (.error e, n)

def clientReceive (n : Loopback) (client : Address) : Option Received × Loopback :=
  n.atClient client (·.receive clientConnection)

def clientThreshold (n : Loopback) (client : Address) (t : Threshold) : Loopback :=
  (n.atClient client fun e => ((), e.setThreshold clientConnection t)).2

def clientClose (n : Loopback) (client : Address) : Loopback :=
  let (b, n) := n.atClient client (·.close clientConnection)
  n.arrive client b.toList

/-! ### The backend's side -/

/-- Does something with the link of a session. -/
def atLink {α : Type} [Inhabited α] (n : Loopback) (id : SessionId)
    (f : BackendLink → α × BackendLink) : α × Loopback :=
  match n.links.get? id with
  | some l =>
    let (a, l) := f l
    (a, { n with links := n.links.modify id fun _ => l })
  | none => (default, n)

/-- Does something with the stream of a session. -/
def atPair {α : Type} [Inhabited α] (n : Loopback) (id : SessionId)
    (f : StreamPair → α × StreamPair) : α × Loopback :=
  n.atLink id fun l =>
    let (a, pair) := f l.pair
    (a, { l with pair })

def modifyPair (n : Loopback) (id : SessionId) (f : StreamPair → StreamPair) : Loopback :=
  (n.atPair id fun l => ((), f l)).2

def sendFrom (e : LinkEnd) (b : Bytes) (l : StreamPair) :
    Option (Except LinkError Unit) × StreamPair :=
  match l.send e b with
  | .ok l => (some (.ok ()), l)
  | .error err => (some (.error err), l)

/-- The backend takes the next link that has been opened. -/
def takeLink (n : Loopback) : Option SessionId × Loopback :=
  match n.waiting with
  | [] => (none, n)
  | id :: r => (some id, { n with waiting := r, taken := n.taken ++ [id] })

/-! ### The gateway's side -/

/-- Starts to log a player in. -/
def openLink (n : Loopback) (id : SessionId) (c : Credentials) : Loopback :=
  if n.refused then
    let e := BackendError.unreachable (n.remote.address ++ ": " ++ Failure.refused.message)
    { n with links := n.links.insert id { login := some (.error e) } }
  else
    let login : Login := { remote := n.remote, identity := n.identity, credentials := c }
    let (r, pair) := (StreamPair.opened login.compression).sendPackets login.opening
    { n with
      links := n.links.insert id { pair, login := some (r.map fun _ => login) }
      waiting := n.waiting ++ [id] }

/-- This many packets of the backend may belong to one login. -/
def loginFuel : Nat := 1000000

/-- Goes on with a login. -/
def pollLogin (l : BackendLink) : Option (Except BackendError Unit) × BackendLink :=
  match l.login with
  | none => (none, l)
  | some (.error e) => (some (.error e), { pair := l.pair.drop .first, login := none })
  | some (.ok login) =>
    match login.conversation.run loginFuel l.pair with
    | (none, _, pair) => (none, { l with pair })
    | (some (.ok _), _, pair) => (some (.ok ()), { pair, login := none })
    | (some (.error e), _, pair) =>
      (some (.error e), { pair := pair.drop .first, login := none })

/-- A packet of the gateway to a client. -/
def sendClient (id : SessionId) (b : Bytes) (n : Loopback) : Except LinkError Unit × Loopback :=
  match n.connections.get? id with
  | none => (.error .shutdown, n)
  | some c =>
    let (sent, endpoint) := n.endpoint.send c b
    let client := ((endpoint.connections.get? c).map (·.address)).getD ""
    let n := { n with endpoint }
    match sent with
    | .ok fs => (.ok (), n.deliver client (fs.map (·.encode)))
    | .error e => (.error e, n)

/-- Does something with the connection of a session. -/
def onConnection (n : Loopback) (id : SessionId)
    (f : ConnectionId → Datagram.Endpoint → Option Bytes × Datagram.Endpoint) : Loopback :=
  match n.connections.get? id with
  | none => n
  | some c =>
    let client := ((n.endpoint.connections.get? c).map (·.address)).getD ""
    let (b, endpoint) := f c n.endpoint
    { n with endpoint }.deliver client b.toList

instance : Network Loopback where
  receiveClient id n :=
    match n.connections.get? id with
    | none => (some .ended, n)
    | some c =>
      let (got, endpoint) := n.endpoint.receive c
      (got, { n with endpoint })
  sendClient := sendClient
  compressClient id t n := n.onConnection id fun c e => (none, e.setThreshold c (some t))
  closeClient id n := n.onConnection id fun c e => e.close c
  connect id c n := n.openLink id c
  connected id n := n.atLink id pollLogin
  receiveBackend id n := n.atPair id (·.receive .first)
  sendBackend id b n :=
    let (r, n) := n.atPair id (sendFrom .first b)
    (r.getD (.error .shutdown), n)
  closeBackend id n := n.modifyPair id (·.drop .first)
  release id n := (n.onConnection id fun c e => (none, e.drop c)).modifyPair id (·.drop .first)

end Loopback
end EditionGateway
