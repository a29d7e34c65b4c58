import EditionGateway.Client.Packet
import EditionGateway.Client.Version
import EditionGateway.Discovery.Advertisement
import EditionGateway.Gateway.Config
import EditionGateway.Session.Registry
import EditionGateway.Text.Blank

/-!
What a gateway advertises: itself, or what it last learned about the backend.
-/

namespace EditionGateway

structure Responder where
  listener : ListenerConfig
  ping : PingConfig
  guid : UInt64
  portNumber : UInt16
deriving Repr

namespace Responder

def editionLabel : String := "MCPE"

/-- Both advertised lines. A backend with two lines fills both, one with a single line only the
first. -/
def lines (r : Responder) (status : Option BackendStatus) : String × String :=
  match r.ping.passthroughMotd, status with
  | true, some s =>
    match Text.lines s.motd with
    | [] => ("", r.listener.subMotd)
    | [first] => (first, r.listener.subMotd)
    | first :: second :: _ => (first, second)
  | _, _ => (r.listener.motd, r.listener.subMotd)

/-- The advertised numbers of players: those online, and the most there may be. -/
def counts (r : Responder) (registry : Registry) : UInt32 × UInt32 :=
  match r.ping.passthroughPlayerCounts, registry.status with
  | true, some s => (s.onlinePlayers, s.maxPlayers)
  | _, _ => (.ofNat registry.size, r.listener.maxPlayers)

def advertisement (r : Responder) (registry : Registry) : Advertisement :=
  let (motd, subMotd) := r.lines registry.status
  let (onlinePlayers, maxPlayers) := r.counts registry
  { edition := editionLabel
    motd
    protocol := Client.Version.newest.protocol
    version := Client.Version.newest.name
    onlinePlayers
    maxPlayers
    serverGuid := r.guid
    subMotd
    gameMode := Client.GameMode.survival.label
    portV4 := r.portNumber
    portV6 := r.portNumber }

/-- The answer to a ping; none once the gateway is shutting down. -/
def reply (r : Responder) (registry : Registry) : Option String :=
  if registry.shuttingDown then none else some (r.advertisement registry).encode

end Responder
end EditionGateway
