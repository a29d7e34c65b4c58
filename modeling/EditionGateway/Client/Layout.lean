import EditionGateway.Client.Packet
import EditionGateway.Shape.Variant

/-!
The layout of the client-facing packets.
-/

namespace EditionGateway

def RuntimeId.shape : Shape RuntimeId := Shape.u64.imap .mk RuntimeId.value

def Vec3.shape : Shape Vec3 :=
  Fields.shape (.field "x" .f32 <| .field "y" .f32 <| .last "z" .f32)
    (fun (x, y, z) => ⟨x, y, z⟩) fun v => (v.x, v.y, v.z)

def BlockPos.shape : Shape BlockPos :=
  Fields.shape (.field "x" .i32 <| .field "y" .i32 <| .last "z" .i32)
    (fun (x, y, z) => ⟨x, y, z⟩) fun p => (p.x, p.y, p.z)

namespace Client

def PlayStatus.shape : Shape PlayStatus := .enumeration [
  ("LoginSuccess", .loginSuccess), ("FailedClient", .failedClient),
  ("FailedServer", .failedServer), ("PlayerSpawn", .playerSpawn), ("ServerFull", .serverFull)]

def PackResponse.shape : Shape PackResponse := .enumeration [
  ("Completed", .completed), ("NoneRequired", .noneRequired), ("Failed", .failed)]

def TextKind.shape : Shape TextKind := .enumeration [
  ("Raw", .raw), ("Chat", .chat), ("System", .system), ("Tip", .tip)]

def MoveMode.shape : Shape MoveMode := .enumeration [
  ("Normal", .normal), ("Reset", .reset), ("Teleport", .teleport)]

def AnimateAction.shape : Shape AnimateAction := .enumeration [
  ("SwingArm", .swingArm), ("WakeUp", .wakeUp), ("CriticalHit", .criticalHit)]

def RespawnState.shape : Shape RespawnState := .enumeration [
  ("Searching", .searching), ("ReadyToSpawn", .readyToSpawn), ("ClientReady", .clientReady)]

def GameMode.shape : Shape GameMode := .enumeration [
  ("Survival", .survival), ("Creative", .creative), ("Adventure", .adventure),
  ("Spectator", .spectator)]

namespace Packet

/-- The kinds of packet, in the order of their numbers. -/
def branches : List (Branch Packet) := [
  .record "RequestNetworkSettings" (.last "protocol_version" .u32) .requestNetworkSettings fun
    | .requestNetworkSettings p => some p
    | _ => none,
  .record "NetworkSettings" (.last "compression_threshold" .u16) .networkSettings fun
    | .networkSettings c => some c
    | _ => none,
  .record "Login"
    (.field "protocol_version" .u32 <| .field "username" .text <| .field "uuid" .uuid <|
      .field "xuid" .text <| .last "token" .text)
    (fun (p, u, uuid, xuid, t) => .login p u uuid xuid t) fun
    | .login p u uuid xuid t => some (p, u, uuid, xuid, t)
    | _ => none,
  .record "ClientData" (.last "payload" .text) .clientData fun
    | .clientData p => some p
    | _ => none,
  .record "PlayStatus" (.last "status" PlayStatus.shape) .playStatus fun
    | .playStatus s => some s
    | _ => none,
  .record "ResourcePacksInfo"
    (.field "must_accept" .flag <| .last "packs" (.list .text))
    (fun (m, p) => .resourcePacksInfo m p) fun
    | .resourcePacksInfo m p => some (m, p)
    | _ => none,
  .record "ResourcePackClientResponse" (.last "status" PackResponse.shape)
    .resourcePackClientResponse fun
    | .resourcePackClientResponse s => some s
    | _ => none,
  .record "ResourcePackStack"
    (.field "must_accept" .flag <| .field "packs" (.list .text) <| .last "game_version" .text)
    (fun (m, p, g) => .resourcePackStack m p g) fun
    | .resourcePackStack m p g => some (m, p, g)
    | _ => none,
  .record "StartGame"
    (.field "runtime_id" RuntimeId.shape <| .field "game_mode" GameMode.shape <|
      .field "position" Vec3.shape <| .field "yaw" .f32 <| .field "pitch" .f32 <|
      .field "dimension" .i32 <| .field "difficulty" .u8 <| .last "hardcore" .flag)
    (fun (r, g, p, yaw, pi, d, di, h) => .startGame r g p yaw pi d di h) fun
    | .startGame r g p yaw pi d di h => some (r, g, p, yaw, pi, d, di, h)
    | _ => none,
  .record "Text"
    (.field "kind" TextKind.shape <| .field "source" .text <| .last "message" .text)
    (fun (kind, s, m) => .text kind s m) fun
    | .text kind s m => some (kind, s, m)
    | _ => none,
  .record "CommandRequest" (.last "command" .text) .commandRequest fun
    | .commandRequest c => some c
    | _ => none,
  .record "MovePlayer"
    (.field "runtime_id" RuntimeId.shape <| .field "position" Vec3.shape <|
      .field "pitch" .f32 <| .field "yaw" .f32 <| .field "head_yaw" .f32 <|
      .field "mode" MoveMode.shape <| .last "on_ground" .flag)
    (fun (r, p, pi, yaw, h, mode, o) => .movePlayer r p pi yaw h mode o) fun
    | .movePlayer r p pi yaw h mode o => some (r, p, pi, yaw, h, mode, o)
    | _ => none,
  .record "Animate"
    (.field "action" AnimateAction.shape <| .last "runtime_id" RuntimeId.shape)
    (fun (a, r) => .animate a r) fun
    | .animate a r => some (a, r)
    | _ => none,
  .record "RequestChunkRadius" (.last "radius" .i32) .requestChunkRadius fun
    | .requestChunkRadius r => some r
    | _ => none,
  .record "ChunkRadiusUpdated" (.last "radius" .i32) .chunkRadiusUpdated fun
    | .chunkRadiusUpdated r => some r
    | _ => none,
  .record "SetTime" (.last "time" .i32) .setTime fun
    | .setTime time => some time
    | _ => none,
  .record "SetHealth" (.last "health" .i32) .setHealth fun
    | .setHealth h => some h
    | _ => none,
  .record "Respawn"
    (.field "position" Vec3.shape <| .field "state" RespawnState.shape <|
      .last "runtime_id" RuntimeId.shape)
    (fun (p, s, r) => .respawn p s r) fun
    | .respawn p s r => some (p, s, r)
    | _ => none,
  .record "AddEntity"
    (.field "runtime_id" RuntimeId.shape <| .field "identifier" .text <|
      .field "position" Vec3.shape <| .field "pitch" .f32 <| .last "yaw" .f32)
    (fun (r, i, p, pi, yaw) => .addEntity r i p pi yaw) fun
    | .addEntity r i p pi yaw => some (r, i, p, pi, yaw)
    | _ => none,
  .record "RemoveEntity" (.last "runtime_id" RuntimeId.shape) .removeEntity fun
    | .removeEntity r => some r
    | _ => none,
  .record "UpdateBlock"
    (.field "position" BlockPos.shape <| .last "block_runtime_id" .u32)
    (fun (p, b) => .updateBlock p b) fun
    | .updateBlock p b => some (p, b)
    | _ => none,
  .record "LevelSoundEvent"
    (.field "sound" .u32 <| .field "position" Vec3.shape <| .field "volume" .f32 <|
      .last "pitch" .f32)
    (fun (s, p, v, pi) => .levelSoundEvent s p v pi) fun
    | .levelSoundEvent s p v pi => some (s, p, v, pi)
    | _ => none,
  .record "NetworkStackLatency"
    (.field "timestamp" .u64 <| .last "needs_response" .flag)
    (fun (t, n) => .networkStackLatency t n) fun
    | .networkStackLatency t n => some (t, n)
    | _ => none,
  .record "Disconnect"
    (.field "hide_screen" .flag <| .last "message" .text)
    (fun (h, m) => .disconnect h m) fun
    | .disconnect h m => some (h, m)
    | _ => none]

def shape : Shape Packet := .variant branches

end Packet
end Client
end EditionGateway
