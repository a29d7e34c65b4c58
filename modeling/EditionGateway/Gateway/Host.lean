import EditionGateway.Backend.Layout
import EditionGateway.Client.Layout
import EditionGateway.Gateway.Network
import EditionGateway.Gateway.Session
import EditionGateway.Session.Registry

/-!
All sessions of a gateway, with what they share: the registry, the network and the clock.
-/

namespace EditionGateway

/-- A session, the channel to it, and its registration. -/
structure Seat where
  session : Session
  address : Address
  channel : ChannelId
  registration : Option Registration := none

structure Host (σ : Type) where
  config : GatewayConfig
  converters : Converters
  network : σ
  registry : Registry := {}
  switchboard : Switchboard := []
  seats : Table SessionId Seat := []
  nextSession : UInt64 := 1
  now : Nat := 0

namespace Host

variable {σ : Type}

/-- This many commands may wait to be taken by a session. -/
def commandBacklog : Nat := 32

/-- A client has connected and gets a session. -/
def welcome (h : Host σ) (address : Address) : SessionId × Host σ :=
  let id : SessionId := ⟨h.nextSession⟩
  let channel := h.switchboard.length
  let session := Session.start h.config h.converters id h.now
  (id, { h with
    nextSession := h.nextSession + 1
    seats := h.seats.insert id { session, address, channel }
    switchboard := h.switchboard.insert channel
      { mailbox := { capacity := commandBacklog }, state := session.lifecycle } })

/-- A session is told what has happened. Those who hold a handle to it see its new state. -/
def handle (h : Host σ) (id : SessionId) (seat : Seat) (e : Event) : Host σ :=
  let session := seat.session.handle h.now e
  { h with
    seats := h.seats.modify id fun seat => { seat with session }
    switchboard := h.switchboard.modify seat.channel fun c =>
      { c with state := session.lifecycle } }

variable [Network σ]

/-- The bytes of a packet go out, if it can be encoded. -/
def transmit {α : Type} (shape : Shape α) (p : α)
    (send : Bytes → σ → Except LinkError Unit × σ) (failed : LinkError → GatewayError)
    (h : Host σ) : Except GatewayError Unit × Host σ :=
  match shape.encode p with
  | .error e => (.error (.codec e), h)
  | .ok b =>
    let (sent, network) := send b h.network
    (sent.mapError failed, { h with network })

/-- Does something for a session. -/
def perform (h : Host σ) (id : SessionId) (seat : Seat) : Act → Except GatewayError Unit × Host σ
  | .enter _ => (.ok (), h)
  | .tell p => h.transmit Client.Packet.shape p (Network.sendClient id) .clientLink
  | .ask p => h.transmit Backend.Packet.shape p (Network.sendBackend id) .backendLink
  | .compress t => (.ok (), { h with network := Network.compressClient id t.toNat h.network })
  | .connect c => (.ok (), { h with network := Network.connect id c h.network })
  | .register username =>
    let handle : SessionHandle :=
      { id, username, address := seat.address, channel := seat.channel }
    match h.registry.register handle with
    | (.ok g, registry) =>
      (.ok (), { h with
        registry
        seats := h.seats.modify id fun seat => { seat with registration := some g } })
    | (.error .shuttingDown, registry) => (.error .shuttingDown, { h with registry })
    | (.error e, registry) => (.error (.session e), { h with registry })
  | .stopListening =>
    (.ok (), { h with switchboard := h.switchboard.modify seat.channel fun c =>
      { c with mailbox := c.mailbox.close } })
  | .closeClient => (.ok (), { h with network := Network.closeClient id h.network })
  | .closeBackend => (.ok (), { h with network := Network.closeBackend id h.network })
  | .deregister =>
    match seat.registration with
    | none => (.ok (), h)
    | some g =>
      let (g, registry) := h.registry.release g
      (.ok (), { h with
        registry
        seats := h.seats.modify id fun seat => { seat with registration := some g } })

/-- What has come from the client. -/
def pollClient (h : Host σ) (id : SessionId) : Option Event × Host σ :=
  let (got, network) := Network.receiveClient id h.network
  let event : Received → Event
    | .ended => .client (.error .clientQuit)
    | .failed e => .client (.error (.clientLink e))
    | .packet b => .client ((Client.Packet.shape.decode b).mapError .codec)
  (got.map event, { h with network })

/-- The reason when the backend has closed its link without a word. -/
def backendGone : String := "Connection to the server was closed"

/-- What has come from the backend. -/
def pollBackend (h : Host σ) (id : SessionId) : Option Event × Host σ :=
  let (got, network) := Network.receiveBackend id h.network
  let event : Received → Event
    | .ended => .backend (.error (.backendClosed backendGone))
    | .failed e => .backend (.error (.backendLink e))
    | .packet b => .backend ((Backend.Packet.shape.decode b).mapError .codec)
  (got.map event, { h with network })

def pollConnect (h : Host σ) (id : SessionId) : Option Event × Host σ :=
  let (r, network) := Network.connected id h.network
  (r.map .connected, { h with network })

def pollCommand (h : Host σ) (seat : Seat) : Option Event × Host σ :=
  match (h.switchboard.get? seat.channel).bind (·.mailbox.take?) with
  | some (c, mailbox) =>
    (some (.command c), { h with
      switchboard := h.switchboard.modify seat.channel fun c => { c with mailbox } })
  | none => (none, h)

def pollTime (h : Host σ) (seat : Seat) : Option Event × Host σ :=
  (if seat.session.deadline ≤ h.now then some .timeUp else none, h)

def pollShutdown (h : Host σ) : Option Event × Host σ :=
  (if h.registry.shuttingDown then some .shutdown else none, h)

/-- The places where a session in this stage looks for something that has happened, the first one
first. -/
def sources (id : SessionId) (seat : Seat) : List (Host σ → Option Event × Host σ) :=
  match seat.session.stage with
  | .handshake => [(·.pollShutdown), (·.pollClient id), (·.pollTime seat)]
  | .linking => [(·.pollShutdown), (·.pollConnect id), (·.pollTime seat), (·.pollClient id)]
  | .forwarding =>
    [(·.pollShutdown), (·.pollCommand seat), (·.pollClient id), (·.pollBackend id),
      (·.pollTime seat)]
  | _ => []

/-- The first thing that has happened at one of the sources. -/
def firstEvent (h : Host σ) : List (Host σ → Option Event × Host σ) → Option Event × Host σ
  | [] => (none, h)
  | source :: r =>
    match source h with
    | (some e, h) => (some e, h)
    | (none, h) => h.firstEvent r

/-- The first lane in which something is to be done. -/
def nextAct (s : Session) : Option (Lane × Act) :=
  [Lane.main, .toBackend, .toClient, .commands].findSome? fun lane =>
    (s.next? lane).map fun act => (lane, act)

/-- One step of a session, if it can make one. -/
def step (h : Host σ) (id : SessionId) (seat : Seat) : Bool × Host σ :=
  match nextAct seat.session with
  | some (lane, act) =>
    let (r, h) := h.perform id seat act
    let h := h.handle id seat (.done lane r)
    let isOver := ((h.seats.get? id).bind (·.session.ending?)).isSome
    (true, if isOver then { h with network := Network.release id h.network } else h)
  | none =>
    match h.firstEvent (sources id seat) with
    | (some e, h) => (true, h.handle id seat e)
    | (none, h) => (false, h)

/-- Lets a session run as far as it can, in at most `fuel` steps; also whether it made any. -/
def runSession (id : SessionId) : Nat → Host σ → Bool × Host σ
  | 0, h => (false, h)
  | fuel + 1, h =>
    match h.seats.get? id with
    | none => (false, h)
    | some seat =>
      match h.step id seat with
      | (true, h) => (true, (runSession id fuel h).2)
      | (false, h) => (false, h)

/-- Lets every session make at most `fuel` steps; also whether any made one. -/
def run (fuel : Nat) (h : Host σ) : Bool × Host σ :=
  h.seats.keys.foldl
    (fun (moved, h) id =>
      let (m, h) := runSession id fuel h
      (moved || m, h))
    (false, h)

/-- Lets the sessions run in turn, at most `fuel` times, until none can make a step. -/
def settle : Nat → Host σ → Host σ
  | 0, h => h
  | fuel + 1, h =>
    match h.run (fuel + 1) with
    | (true, h) => settle fuel h
    | (false, h) => h

/-- The counters of all sessions together. -/
def conversionStats (h : Host σ) : ConversionStats :=
  h.seats.values.foldl
    (fun t seat => {
      converted := t.converted + seat.session.stats.converted
      unmapped := t.unmapped + seat.session.stats.unmapped
      failed := t.failed + seat.session.stats.failed })
    {}

/-- The next time at which a session runs out of time. -/
def nextDeadline? (h : Host σ) : Option Nat :=
  (h.seats.values.filter fun seat => seat.session.awaits .timeUp).map (·.session.deadline) |>.min?

end Host
end EditionGateway
