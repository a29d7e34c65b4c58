import EditionGateway.Backend.Packet
import EditionGateway.Client.Layout
import EditionGateway.Shape.Text

/-!
The layout of the backend-facing packets.
-/

namespace EditionGateway.Backend

def NextState.shape : Shape NextState := .enumeration [
  ("Status", .status), ("Login", .login)]

def ChatPosition.shape : Shape ChatPosition := .enumeration [
  ("Chat", .chat), ("System", .system), ("GameInfo", .gameInfo)]

def Hand.shape : Shape Hand := .enumeration [
  ("Main", .main), ("Off", .off)]

def ClientAction.shape : Shape ClientAction := .enumeration [
  ("Respawn", .respawn), ("RequestStats", .requestStats)]

namespace Packet

/-- The kinds of packet, in the order of their numbers. -/
def branches : List (Branch Packet) := [
  .record "Handshake"
    (.field "protocol_version" .i32 <| .field "server_address" .text <|
      .field "server_port" .u16 <| .last "next_state" NextState.shape)
    (fun (p, s, se, n) => .handshake p s se n) fun
    | .handshake p s se n => some (p, s, se, n)
    | _ => none,
  .unit "StatusRequest" .statusRequest (·.kind = .statusRequest),
  .record "StatusResponse" (.last "json" .text) .statusResponse fun
    | .statusResponse json => some json
    | _ => none,
  .record "PingRequest" (.last "payload" .i64) .pingRequest fun
    | .pingRequest p => some p
    | _ => none,
  .record "PongResponse" (.last "payload" .i64) .pongResponse fun
    | .pongResponse p => some p
    | _ => none,
  .record "LoginStart"
    (.field "username" .text <| .last "uuid" (.option .uuid))
    (fun (u, uuid) => .loginStart u uuid) fun
    | .loginStart u uuid => some (u, uuid)
    | _ => none,
  .record "LoginChallenge"
    (.field "server_id" .text <| .last "verify_token" (.list .u8))
    (fun (s, v) => .loginChallenge s v) fun
    | .loginChallenge s v => some (s, v)
    | _ => none,
  .record "LoginChallengeResponse"
    (.field "verify_token" (.list .u8) <| .last "session_token" .text)
    (fun (v, s) => .loginChallengeResponse v s) fun
    | .loginChallengeResponse v s => some (v, s)
    | _ => none,
  .record "SetCompression" (.last "threshold" .i32) .setCompression fun
    | .setCompression t => some t
    | _ => none,
  .record "LoginSuccess"
    (.field "uuid" .uuid <| .last "username" .text)
    (fun (uuid, u) => .loginSuccess uuid u) fun
    | .loginSuccess uuid u => some (uuid, u)
    | _ => none,
  .record "LoginDisconnect" (.last "reason" TextComponent.shape) .loginDisconnect fun
    | .loginDisconnect r => some r
    | _ => none,
  .record "JoinGame"
    (.field "entity_id" .i32 <| .field "game_mode" .u8 <| .field "dimension" .i32 <|
      .field "difficulty" .u8 <| .field "max_players" .u8 <| .field "view_distance" .i32 <|
      .last "hardcore" .flag)
    (fun (e, g, d, di, m, v, h) => .joinGame e g d di m v h) fun
    | .joinGame e g d di m v h => some (e, g, d, di, m, v, h)
    | _ => none,
  .record "ChatMessage"
    (.field "message" TextComponent.shape <| .field "sender" (.option .text) <|
      .last "position" ChatPosition.shape)
    (fun (m, s, p) => .chatMessage m s p) fun
    | .chatMessage m s p => some (m, s, p)
    | _ => none,
  .record "ClientChat" (.last "message" .text) .clientChat fun
    | .clientChat m => some m
    | _ => none,
  .record "ClientSettings"
    (.field "locale" .text <| .field "view_distance" .u8 <| .field "chat_colors" .flag <|
      .last "main_hand" Hand.shape)
    (fun (l, v, c, m) => .clientSettings l v c m) fun
    | .clientSettings l v c m => some (l, v, c, m)
    | _ => none,
  .record "KeepAlive" (.last "id" .i64) .keepAlive fun
    | .keepAlive id => some id
    | _ => none,
  .record "KeepAliveResponse" (.last "id" .i64) .keepAliveResponse fun
    | .keepAliveResponse id => some id
    | _ => none,
  .record "PlayerPosition"
    (.field "x" .f64 <| .field "y" .f64 <| .field "z" .f64 <| .field "yaw" .f32 <|
      .field "pitch" .f32 <| .last "on_ground" .flag)
    (fun (x, y, z, yaw, p, o) => .playerPosition x y z yaw p o) fun
    | .playerPosition x y z yaw p o => some (x, y, z, yaw, p, o)
    | _ => none,
  .record "PlayerPositionAndLook"
    (.field "x" .f64 <| .field "y" .f64 <| .field "z" .f64 <| .field "yaw" .f32 <|
      .field "pitch" .f32 <| .last "teleport_id" .i32)
    (fun (x, y, z, yaw, p, t) => .playerPositionAndLook x y z yaw p t) fun
    | .playerPositionAndLook x y z yaw p t => some (x, y, z, yaw, p, t)
    | _ => none,
  .record "TeleportConfirm" (.last "teleport_id" .i32) .teleportConfirm fun
    | .teleportConfirm t => some t
    | _ => none,
  .record "Animation" (.last "hand" Hand.shape) .animation fun
    | .animation hand => some hand
    | _ => none,
  .record "TimeUpdate"
    (.field "world_age" .i64 <| .last "time_of_day" .i64)
    (fun (w, t) => .timeUpdate w t) fun
    | .timeUpdate w t => some (w, t)
    | _ => none,
  .record "UpdateHealth"
    (.field "health" .f32 <| .field "food" .i32 <| .last "saturation" .f32)
    (fun (h, food, s) => .updateHealth h food s) fun
    | .updateHealth h food s => some (h, food, s)
    | _ => none,
  .record "ClientCommand" (.last "action" ClientAction.shape) .clientCommand fun
    | .clientCommand a => some a
    | _ => none,
  .record "SpawnEntity"
    (.field "entity_id" .i32 <| .field "uuid" .uuid <| .field "entity_type" .i32 <|
      .field "x" .f64 <| .field "y" .f64 <| .field "z" .f64 <| .field "pitch" .f32 <|
      .last "yaw" .f32)
    (fun (e, uuid, en, x, y, z, p, yaw) => .spawnEntity e uuid en x y z p yaw) fun
    | .spawnEntity e uuid en x y z p yaw => some (e, uuid, en, x, y, z, p, yaw)
    | _ => none,
  .record "RemoveEntities" (.last "entity_ids" (.list .i32)) .removeEntities fun
    | .removeEntities e => some e
    | _ => none,
  .record "BlockChange"
    (.field "position" BlockPos.shape <| .last "block_state" .i32)
    (fun (p, b) => .blockChange p b) fun
    | .blockChange p b => some (p, b)
    | _ => none,
  .record "SoundEffect"
    (.field "sound_id" .i32 <| .field "x" .i32 <| .field "y" .i32 <| .field "z" .i32 <|
      .field "volume" .f32 <| .last "pitch" .f32)
    (fun (s, x, y, z, v, p) => .soundEffect s x y z v p) fun
    | .soundEffect s x y z v p => some (s, x, y, z, v, p)
    | _ => none,
  .record "Disconnect" (.last "reason" TextComponent.shape) .disconnect fun
    | .disconnect r => some r
    | _ => none]

def shape : Shape Packet := .variant branches

end Packet
end EditionGateway.Backend
