import EditionGateway.Discovery.Advertisement
import EditionGateway.Discovery.StatusDocument
import EditionGateway.Shape.Fields

/-!
The layout of advertisements and of what a probe learned, for those who watch a gateway.
-/

namespace EditionGateway

def Advertisement.shape : Shape Advertisement :=
  Fields.shape
    (.field "edition" .text <| .field "motd" .text <| .field "protocol" .u32 <|
      .field "version" .text <| .field "online_players" .u32 <| .field "max_players" .u32 <|
      .field "server_guid" .u64 <| .field "sub_motd" .text <| .field "game_mode" .text <|
      .field "port_v4" .u16 <| .last "port_v6" .u16)
    (fun (e, m, p, v, o, x, g, s, gm, p4, p6) => ⟨e, m, p, v, o, x, g, s, gm, p4, p6⟩)
    fun a => (a.edition, a.motd, a.protocol, a.version, a.onlinePlayers, a.maxPlayers, a.serverGuid,
      a.subMotd, a.gameMode, a.portV4, a.portV6)

def BackendStatus.shape : Shape BackendStatus :=
  Fields.shape
    (.field "motd" .text <| .field "online_players" .u32 <| .field "max_players" .u32 <|
      .field "version_name" .text <| .field "protocol" .i32 <|
      .last "latency_ms" (.option .u64))
    (fun (m, o, x, v, p, l) => ⟨m, o, x, v, p, l⟩)
    fun s => (s.motd, s.onlinePlayers, s.maxPlayers, s.versionName, s.protocol, s.latencyMs)

end EditionGateway
