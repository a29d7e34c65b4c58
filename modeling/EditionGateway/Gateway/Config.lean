import EditionGateway.Datagram.Endpoint
import EditionGateway.Gateway.Error
import EditionGateway.Json.Record

/-!
The settings of a gateway. Every field may be left out of a config document and then has its
default. Times are written as milliseconds.
-/

namespace EditionGateway

/-- Where clients connect, and what is advertised. -/
structure ListenerConfig where
  address : String := "0.0.0.0"
  portNumber : UInt16 := 19132
  motd : String := "Crossplay"
  subMotd : String := "Crossplay"
  maxPlayers : UInt32 := 100
  compressionThreshold : UInt16 := 256
  mtu : UInt16 := Datagram.defaultMtu
deriving DecidableEq, Repr

def ListenerConfig.bindAddress (c : ListenerConfig) : String :=
  c.address ++ ":" ++ toString c.portNumber.toNat

/-- Whether the backend trusts user names or challenges them. -/
inductive AuthMode
  | offline
  | online
deriving DecidableEq, Repr

def AuthMode.name : AuthMode → String
  | .offline => "Offline"
  | .online => "Online"

structure RemoteConfig where
  address : String := "127.0.0.1"
  portNumber : UInt16 := 25565
  auth : AuthMode := .offline
deriving DecidableEq, Repr

structure SessionConfig where
  handshakeTimeout : Duration := .ofMillis 10000
  linkingTimeout : Duration := .ofMillis 5000
  idleTimeout : Duration := .ofMillis 30000
deriving DecidableEq, Repr

structure PingConfig where
  passthroughMotd : Bool := true
  passthroughPlayerCounts : Bool := true
  refreshInterval : Duration := .ofMillis 3000
  probeTimeout : Duration := .ofMillis 2000
deriving DecidableEq, Repr

structure GatewayConfig where
  listener : ListenerConfig := {}
  remote : RemoteConfig := {}
  session : SessionConfig := {}
  ping : PingConfig := {}
deriving DecidableEq, Repr

/-- A duration as a number of milliseconds. -/
def Duration.ofJson (j : Json) : Option Duration := (j.natBelow? UInt64.size).map .ofMillis

def AuthMode.shape : Shape AuthMode := .enumeration [("offline", .offline), ("online", .online)]

def ListenerConfig.ofJson (d : Nat) (j : Json) : Option ListenerConfig := do
  let standard : ListenerConfig := {}
  let (_, vs) ← j.fieldValues? [["address"], ["port"], ["motd"], ["sub_motd"], ["max_players"],
    ["compression_threshold"], ["mtu"]] true d
  match vs with
  | [address, portNumber, motd, subMotd, maxPlayers, threshold, mtu] =>
    let number (bound : Nat) := Json.orDefault? (Json.natBelow? bound)
    let maxPlayers ← number UInt32.size standard.maxPlayers.toNat maxPlayers
    let portNumber ← number UInt16.size standard.portNumber.toNat portNumber
    let threshold ← number UInt16.size standard.compressionThreshold.toNat threshold
    let mtu ← number UInt16.size standard.mtu.toNat mtu
    return {
      address := ← Json.orDefault? Json.text? standard.address address
      motd := ← Json.orDefault? Json.text? standard.motd motd
      subMotd := ← Json.orDefault? Json.text? standard.subMotd subMotd
      portNumber := .ofNat portNumber
      maxPlayers := .ofNat maxPlayers
      compressionThreshold := .ofNat threshold
      mtu := .ofNat mtu }
  | _ => none

def RemoteConfig.ofJson (d : Nat) (j : Json) : Option RemoteConfig := do
  let standard : RemoteConfig := {}
  let (d, vs) ← j.fieldValues? [["address"], ["port"], ["auth"]] true d
  match vs with
  | [address, portNumber, auth] =>
    let number (bound : Nat) := Json.orDefault? (Json.natBelow? bound)
    let portNumber ← number UInt16.size standard.portNumber.toNat portNumber
    return {
      address := ← Json.orDefault? Json.text? standard.address address
      portNumber := .ofNat portNumber
      auth := ← Json.orDefault? (AuthMode.shape.ofJson d) standard.auth auth }
  | _ => none

def SessionConfig.ofJson (d : Nat) (j : Json) : Option SessionConfig := do
  let standard : SessionConfig := {}
  let (_, vs) ← j.fieldValues? [["handshake_timeout"], ["linking_timeout"], ["idle_timeout"]] true d
  match vs with
  | [handshake, linking, idle] =>
    return {
      handshakeTimeout := ← Json.orDefault? Duration.ofJson standard.handshakeTimeout handshake
      linkingTimeout := ← Json.orDefault? Duration.ofJson standard.linkingTimeout linking
      idleTimeout := ← Json.orDefault? Duration.ofJson standard.idleTimeout idle }
  | _ => none

def PingConfig.ofJson (d : Nat) (j : Json) : Option PingConfig := do
  let standard : PingConfig := {}
  let (_, vs) ← j.fieldValues? [["passthrough_motd"], ["passthrough_player_counts"],
    ["refresh_interval"], ["probe_timeout"]] true d
  match vs with
  | [motd, counts, interval, timeout] =>
    return {
      passthroughMotd := ← Json.orDefault? Json.bool? standard.passthroughMotd motd
      passthroughPlayerCounts :=
        ← Json.orDefault? Json.bool? standard.passthroughPlayerCounts counts
      refreshInterval := ← Json.orDefault? Duration.ofJson standard.refreshInterval interval
      probeTimeout := ← Json.orDefault? Duration.ofJson standard.probeTimeout timeout }
  | _ => none

namespace GatewayConfig

def ofJson (j : Json) : Option GatewayConfig := do
  let (d, vs) ← j.fieldValues? [["bedrock"], ["remote"], ["session"], ["ping"]] true Json.maxDepth
  match vs with
  | [listener, remote, session, ping] =>
    return {
      listener := ← Json.orDefault? (ListenerConfig.ofJson d) {} listener
      remote := ← Json.orDefault? (RemoteConfig.ofJson d) {} remote
      session := ← Json.orDefault? (SessionConfig.ofJson d) {} session
      ping := ← Json.orDefault? (PingConfig.ofJson d) {} ping }
  | _ => none

def parse (b : Bytes) : Except GatewayError GatewayConfig :=
  match (Json.parse b).bind ofJson with
  | some c => .ok c
  | none => .error .config

/-- Reads the contents of a config file, which have to be text. -/
def ofFile (b : Bytes) : Except GatewayError GatewayConfig :=
  if (Bytes.toText? b).isSome then parse b else .error (.configFile "stream did not contain text")

def orIfZero (standard d : Duration) : Duration := if d.nanos = 0 then standard else d

/-- Settings that would stall or break the gateway give way to ones that do not. -/
def validated (c : GatewayConfig) : GatewayConfig :=
  let s : SessionConfig := {}
  let p : PingConfig := {}
  { c with
    listener := { c.listener with mtu := max c.listener.mtu Datagram.minMtu }
    session := {
      handshakeTimeout := orIfZero s.handshakeTimeout c.session.handshakeTimeout
      linkingTimeout := orIfZero s.linkingTimeout c.session.linkingTimeout
      idleTimeout := orIfZero s.idleTimeout c.session.idleTimeout }
    ping := { c.ping with
      refreshInterval := orIfZero p.refreshInterval c.ping.refreshInterval
      probeTimeout := orIfZero p.probeTimeout c.ping.probeTimeout } }

end GatewayConfig
end EditionGateway
