import EditionGateway.Gateway.Config
import EditionGateway.Session.Channel
import EditionGateway.Session.Context
import EditionGateway.Conversion.Dispatch

/-!
One session, from the moment a client has connected until both links are closed. The session itself
does nothing: it says what is to be done next, and is told what happens.

The client says which protocol it speaks, logs in and answers the offer of resource packs; then the
link to the backend is opened while the client waits; then the session is registered and packets are
converted both ways. Every way out leads through the same teardown.
-/

namespace EditionGateway

/-- Something that a session has done for it. -/
inductive Act
  | enter (state : Lifecycle)
  | tell (p : Client.Packet)
  | compress (threshold : UInt16)
  | connect (c : Credentials)
  | ask (p : Backend.Packet)
  | register (username : String)
  | stopListening
  | closeClient
  | closeBackend
  | deregister

/-- What a session is about. `refusing` is a handshake that fails as soon as the client has been
told so. -/
inductive Stage
  | handshake
  | refusing (e : GatewayError)
  | linking
  | joining
  | forwarding
  | ending (e : GatewayError)
deriving DecidableEq, Repr

/-- The queues of things to be done. In the stage `forwarding` three of them go on side by side. -/
inductive Lane
  | main
  | toBackend
  | toClient
  | commands
deriving DecidableEq, Repr

/-- What a session waits for, and is told. -/
inductive Event
  | shutdown
  | client (r : Except GatewayError Client.Packet)
  | connected (r : Except BackendError Unit)
  | backend (r : Except GatewayError Backend.Packet)
  | command (c : SessionCommand)
  | timeUp
  | done (lane : Lane) (r : Except GatewayError Unit)

structure Session where
  settings : SessionConfig
  threshold : UInt16
  converters : Converters
  context : SessionContext
  stage : Stage := .handshake
  lifecycle : Lifecycle := .connecting
  deadline : Nat
  stats : ConversionStats := {}
  todo : List Act := []
  upward : List Backend.Packet := []
  downward : List Client.Packet := []
  notices : List Client.Packet := []
  linked : Bool := false
  registered : Bool := false

namespace Session

/-- The radius that is asked for when the client names none. -/
def defaultChunkRadius : Int32 := 8

def start (config : GatewayConfig) (converters : Converters) (id : SessionId) (now : Nat) :
    Session where
  settings := config.session
  threshold := config.listener.compressionThreshold
  converters := converters
  context := { id }
  deadline := now + config.session.handshakeTimeout.nanos
  todo := [.enter .awaitingAuth]

/-! ### The end -/

/-- What is done when a session ends: the client is told why if it can be, both links are closed,
and the session is taken out of the registry. -/
def teardown (s : Session) (e : GatewayError) : List Act :=
  (if s.registered then [.stopListening] else []) ++ [.enter .closing]
    ++ (if e.clientReachable then [.tell (.farewell e.disconnectReason.message)] else [])
    ++ [.closeClient] ++ (if s.linked then [.closeBackend] else [])
    ++ (if s.registered then [.deregister] else []) ++ [.enter .closed]

def fail (s : Session) (e : GatewayError) : Session :=
  { s with
    stage := .ending e
    todo := s.teardown e
    upward := []
    downward := []
    notices := [] }

/-- Why the session has ended, once everything about it is done. -/
def ending? (s : Session) : Option GatewayError :=
  match s.stage, s.todo with
  | .ending e, [] => some e
  | _, _ => none

/-! ### The handshake -/

/-- A packet that means nothing yet. A latency probe is answered; all else but a farewell is
dropped. -/
def onGated (s : Session) : Client.Packet → Session
  | .networkStackLatency timestamp true =>
    { s with todo := [.tell (.networkStackLatency timestamp false)] }
  | .disconnect .. => s.fail .clientQuit
  | _ => s

/-- The packs are offered, once, when the client has said who it is and what it is. -/
def offerPacks (s : Session) : Session :=
  if s.lifecycle = .awaitingAuth ∧ s.context.isAuthenticated then
    { s with todo := [.tell (.playStatus .loginSuccess), .tell (.resourcePacksInfo false []),
      .enter .awaitingHandshakeAck] }
  else s

/-- Keeps what the client has told about itself, unless it is out of order. -/
def remember (s : Session) (c : Except SessionError SessionContext) : Session :=
  match c with
  | .ok context => { s with context }.offerPacks
  | .error e => s.fail (.session e)

def onSettingsRequest (s : Session) (protocol : UInt32) : Session :=
  match s.context.version, Client.Version.select? protocol with
  | some _, _ => s
  | none, some v =>
    { s with
      context := { s.context with version := some v }
      todo := [.tell (.networkSettings s.threshold), .compress s.threshold] }
  | none, none =>
    let status := if protocol < Client.Version.oldest.protocol then .failedClient else .failedServer
    { s with
      stage := .refusing (.unsupportedVersion protocol)
      todo := [.tell (.playStatus status)] }

def onLogin (s : Session) (protocol : UInt32) (c : Credentials) : Session :=
  match s.context.version with
  | none => s.fail (.handshake "login before network settings")
  | some v =>
    if protocol ≠ v.protocol then
      s.fail (.handshake "login protocol differs from network settings")
    else s.remember (c.validate.bind fun _ => s.context.setAuth c)

def onClientData (s : Session) (payload : String) : Session :=
  if s.context.version.isNone then s.fail (.handshake "client data before network settings")
  else s.remember ((ClientData.parse payload).bind s.context.setClientData)

def onPackResponse (s : Session) (status : Client.PackResponse) : Session :=
  if s.lifecycle ≠ .awaitingHandshakeAck then s
  else if status = .failed then s.fail .packsRefused
  else
    match s.context.auth with
    | none => s.fail (.handshake "linking without login")
    | some c =>
      let version := s.context.version.getD .newest
      { s with todo := [.tell (.resourcePackStack false [] version.name), .enter .linkingBackend,
        .connect c] }

def onHandshake (s : Session) : Client.Packet → Session
  | .requestNetworkSettings protocol => s.onSettingsRequest protocol
  | .login protocol username uuid xuid token => s.onLogin protocol ⟨username, uuid, xuid, token⟩
  | .clientData payload => s.onClientData payload
  | .resourcePackClientResponse status => s.onPackResponse status
  | p => s.onGated p

/-! ### Forwarding -/

/-- What the backend is asked first. -/
def opening (s : Session) : Session :=
  let radius := (s.context.clientData.bind (·.viewDistance)).getD defaultChunkRadius
  let d := s.converters.dispatchToBackend s.stats s.context (.requestChunkRadius radius)
  { s with todo := d.packets.map .ask, context := d.context, stats := d.stats }

/-- While nothing is on its way to the backend, the client may be silent for some time. -/
def awaitClient (s : Session) (now : Nat) : Session :=
  if s.upward.isEmpty then { s with deadline := now + s.settings.idleTimeout.nanos } else s

def onClientPacket (s : Session) (now : Nat) : Client.Packet → Session
  | .disconnect .. => s.fail .clientQuit
  | p =>
    let d := s.converters.dispatchToBackend s.stats s.context p
    { s with upward := d.packets, context := d.context, stats := d.stats }.awaitClient now

def onBackendPacket (s : Session) : Backend.Packet → Session
  | .disconnect reason => s.fail (.backendClosed reason.legacy)
  | p =>
    let d := s.converters.dispatchToClient s.stats s.context p
    { s with downward := d.packets, context := d.context, stats := d.stats }

def onCommand (s : Session) : SessionCommand → Session
  | .close reason => s.fail (.kicked reason)
  | .sendMessage text => { s with notices := [.systemText text] }

/-! ### Steps -/

/-- What is to be done next in a lane. -/
def next? (s : Session) : Lane → Option Act
  | .main => s.todo.head?
  | .toBackend => s.upward.head?.map .ask
  | .toClient => s.downward.head?.map .tell
  | .commands => s.notices.head?.map .tell

/-- The stage that follows when there is nothing left to do in this one. -/
def settle (s : Session) (now : Nat) : Session :=
  match s.stage, s.todo with
  | .refusing e, [] => s.fail e
  | .joining, [] => { s with stage := .forwarding }.awaitClient now
  | _, _ => s

/-- The first thing to do has been done. -/
def onDone (s : Session) (now : Nat) : Session :=
  match s.todo with
  | [] => s
  | act :: todo =>
    let s := { s with todo }
    match act with
    | .enter state => { s with lifecycle := s.lifecycle.moveTo state }.settle now
    | .connect _ =>
      { s with stage := .linking, deadline := now + s.settings.linkingTimeout.nanos }
    | .register _ => { s with registered := true }.opening.settle now
    | _ => s.settle now

/-- A failure ends the session; one during the teardown is passed over. -/
def onFailed (s : Session) (e : GatewayError) : Session :=
  match s.stage with
  | .ending _ => { s with todo := s.todo.tail }
  | _ => s.fail e

/-- The error of a session that has run out of time. -/
def timeoutError (s : Session) : GatewayError :=
  match s.stage with
  | .linking => .backend (.timedOut s.settings.linkingTimeout)
  | .forwarding => .idleTimeout s.settings.idleTimeout
  | _ => .handshakeTimeout s.settings.handshakeTimeout

/-- Whether the session waits for something of this kind. -/
def awaits (s : Session) : Event → Bool
  | .done lane _ => (s.next? lane).isSome
  | .shutdown =>
    match s.stage with
    | .handshake | .linking => s.todo.isEmpty
    | .forwarding => true
    | _ => false
  | .client _ =>
    match s.stage with
    | .handshake | .linking => s.todo.isEmpty
    | .forwarding => s.upward.isEmpty
    | _ => false
  | .connected _ => s.stage = .linking && s.todo.isEmpty
  | .backend _ => s.stage = .forwarding && s.downward.isEmpty
  | .command _ => s.stage = .forwarding && s.notices.isEmpty
  | .timeUp =>
    match s.stage with
    | .handshake | .refusing _ => true
    | .linking => s.todo.isEmpty
    | .forwarding => s.upward.isEmpty
    | _ => false

/-- What becomes of a session when something happens that it waits for. -/
def handle (s : Session) (now : Nat) : Event → Session
  | .shutdown => s.fail .shuttingDown
  | .timeUp => s.fail s.timeoutError
  | .client (.error e) | .backend (.error e) => s.fail e
  | .client (.ok p) =>
    match s.stage with
    | .handshake => s.onHandshake p
    | .forwarding => s.onClientPacket now p
    | _ => s.onGated p
  | .backend (.ok p) => s.onBackendPacket p
  | .connected (.error e) => s.fail (.backend e)
  | .connected (.ok _) =>
    { s with
      stage := .joining
      linked := true
      todo := [.enter .established, .register (s.context.username?.getD "")] }
  | .command c => s.onCommand c
  | .done _ (.error e) => s.onFailed e
  | .done .main (.ok _) => s.onDone now
  | .done .toBackend (.ok _) => { s with upward := s.upward.tail }.awaitClient now
  | .done .toClient (.ok _) => { s with downward := s.downward.tail }
  | .done .commands (.ok _) => { s with notices := s.notices.tail }

end Session
end EditionGateway
