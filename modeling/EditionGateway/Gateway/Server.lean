import EditionGateway.Datagram.Probe
import EditionGateway.Discovery.Refresher
import EditionGateway.Discovery.Responder
import EditionGateway.Gateway.Host
import EditionGateway.Gateway.Loopback
import EditionGateway.Linking.Script
import EditionGateway.Linking.StatusQuery

/-!
A whole gateway on a network inside one machine: the accept loop, the sessions, the refresh loop and
the discovery responder. Time passes only when nothing can be done.
-/

namespace EditionGateway

/-- `status` is what the backend answers when it is asked for its status, if there is a backend. -/
structure Server where
  host : Host Loopback
  responder : Responder
  refresher : Refresher
  status : Option String

namespace Server

/-- Many more steps than can be made without anything new happening. -/
def stepLimit : Nat := 1000000

/-- Binds the listener and starts the refresh loop. -/
def start (config : GatewayConfig) (mappings : Mappings) (guid : UInt64) (status : Option String) :
    Server :=
  let config := config.validated
  { host := {
      config
      converters := .standard mappings
      network := {
        remote := config.remote
        refused := status.isNone
        endpoint := .listen guid config.listener.mtu } }
    responder := ⟨config.listener, config.ping, guid, config.listener.portNumber⟩
    refresher := .start config.ping.refreshInterval 0
    status }

/-- The backend that is asked for its status answers it, and a ping. -/
def statusScript (status : String) : ScriptedBackend where
  steps := [.expect, .expect, .send (Backend.Packet.shape.write (.statusResponse status)), .expect,
    .pong 0, .hold]

/-- Asks the backend for its status. -/
def probe (s : Server) : ProbeResult :=
  let remote := s.host.config.remote
  match s.status with
  | none => .error (.unreachable (remote.address ++ ": " ++ Failure.refused.message))
  | some status =>
    let query := StatusQuery.conversation 0 s.host.now
    StatusQuery.outcome s.host.config.ping.probeTimeout
      (query.holdWith (StatusQuery.opening remote) stepLimit (statusScript status)).1

/-- Gives a session to the next client that has connected. -/
def acceptOne (s : Server) : Option Server :=
  if s.host.registry.shuttingDown then none
  else
    match s.host.network.endpoint.accept with
    | (some (.ok c), endpoint) =>
      let (id, h) := s.host.welcome c.address
      let n := h.network
      some { s with host := { h with
        network := { n with endpoint, connections := n.connections.insert id c.id } } }
    | _ => none

/-- One step of the refresh loop. -/
def refreshOne (s : Server) : Option Server :=
  (s.refresher.wake s.host.now s.host.registry.shuttingDown).map fun r =>
    if r.phase = .probing then
      { s with
        refresher := r.finish
        host := { s.host with registry := s.host.registry.noteProbe s.probe } }
    else { s with refresher := r }

/-- Does all that can be done, in at most `fuel` rounds, without time passing. -/
def settle : Nat → Server → Server
  | 0, s => s
  | fuel + 1, s =>
    match s.acceptOne with
    | some s => settle fuel s
    | none =>
      match s.refreshOne with
      | some s => settle fuel s
      | none => { s with host := s.host.settle (fuel + 1) }

/-- The next time at which something happens by itself. -/
def nextTime? (s : Server) : Option Nat :=
  (s.host.nextDeadline?.toList
    ++ if s.refresher.phase = .waiting then [s.refresher.due] else []).min?

/-- Waits until something is the case, letting time pass at most `fuel` times. -/
def await {α : Type} (ready : Server → Option (α × Server)) : Nat → Server → Option α × Server
  | 0, s => (none, s)
  | fuel + 1, s =>
    let s := s.settle stepLimit
    match ready s with
    | some (a, s) => (some a, s)
    | none =>
      match s.nextTime? with
      | none => (none, s)
      | some time => await ready fuel { s with host := { s.host with now := max s.host.now time } }

/-- Closes every session, and then tells all clients that are left. -/
def shutdown (s : Server) : Server :=
  let s := { s with host := { s.host with registry := s.host.registry.beginShutdown } }.settle
    stepLimit
  let n := s.host.network
  let (told, endpoint) := n.endpoint.shutdown
  let network := told.foldl (fun n client => n.deliver client [Datagram.disconnect])
    { n with endpoint }
  { s with host := { s.host with network } }

/-- What a client learns that asks the gateway for its advertisement. -/
def ping (s : Server) (time : UInt64) : Except LinkError String :=
  let answer := s.responder.reply s.host.registry
  let (reply, _) := s.host.network.endpoint.handle answer 0 "127.0.0.1" (Datagram.ping time 0)
  Datagram.probe Loopback.gatewayAddress time (reply.toList.map .server)

end Server
end EditionGateway
