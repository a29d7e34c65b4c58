import EditionGateway.Gateway.Config
import EditionGateway.Json.Access
import EditionGateway.Session.Registry
import EditionGateway.Conversion.Dispatch

/-!
The settings and the state of a gateway as they are reported in JSON.
-/

namespace EditionGateway

def ClientData.report (d : ClientData) : Json := .obj [
  ("language_code", d.languageCode), ("locale", d.locale), ("device_os", d.deviceOs.name),
  ("is_mobile", d.deviceOs.isMobile), ("input_mode", d.inputMode.name),
  ("view_distance", d.viewDistance), ("device_model", d.deviceModel),
  ("game_version", d.gameVersion), ("is_default", decide (d = {}))]

def SessionHandle.report (s : Switchboard) (h : SessionHandle) : Json := .obj [
  ("id", h.id.label), ("username", h.username), ("addr", h.address),
  ("state", (s.get? h.channel).map (·.state.label))]

def SessionCommand.report : SessionCommand → Json
  | .close r => .obj [("close", .obj [("category", r.category.label), ("message", r.message)])]
  | .sendMessage text => .obj [("message", text)]

def RegistryStats.report (s : RegistryStats) : Json := .obj [
  ("live", s.live), ("registered", s.registered), ("deregistered", s.deregistered),
  ("rejected", s.rejected)]

/-- How many kinds of packet are converted in each direction. -/
def Converters.report (c : Converters) : String :=
  "TranslatorRegistry \x7b upstream: " ++ toString c.toBackend.length ++ ", downstream: "
    ++ toString c.toClient.length ++ " \x7d"

def ConversionStats.report (s : ConversionStats) : Json := .obj [
  ("translated", s.converted), ("unmapped", s.unmapped), ("failed", s.failed)]

def ListenerConfig.report (c : ListenerConfig) : Json := .obj [
  ("address", c.address), ("port", c.portNumber), ("motd", c.motd), ("sub_motd", c.subMotd),
  ("max_players", c.maxPlayers), ("compression_threshold", c.compressionThreshold),
  ("mtu", c.mtu), ("bind_addr", c.bindAddress)]

def RemoteConfig.report (c : RemoteConfig) : Json := .obj [
  ("address", c.address), ("port", c.portNumber), ("auth", c.auth.name)]

def SessionConfig.report (c : SessionConfig) : Json := .obj [
  ("handshake_timeout", c.handshakeTimeout.millis), ("linking_timeout", c.linkingTimeout.millis),
  ("idle_timeout", c.idleTimeout.millis)]

def PingConfig.report (c : PingConfig) : Json := .obj [
  ("passthrough_motd", c.passthroughMotd),
  ("passthrough_player_counts", c.passthroughPlayerCounts),
  ("refresh_interval", c.refreshInterval.millis), ("probe_timeout", c.probeTimeout.millis)]

def GatewayConfig.report (c : GatewayConfig) : Json := .obj [
  ("bedrock", c.listener.report), ("remote", c.remote.report), ("session", c.session.report),
  ("ping", c.ping.report)]

end EditionGateway
