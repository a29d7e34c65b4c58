import EditionGateway.Geometry
import EditionGateway.Identity.Uuid
import EditionGateway.Text.Component

/-!
The packets of the backend-facing edition. A link starts with a handshake, which chooses between
asking for the status and logging in; a login leads on to play. Floats are kept as their bits.
-/

namespace EditionGateway.Backend

/-- The part of the conversation that a packet belongs to. -/
inductive Phase
  | handshake
  | status
  | login
  | play
deriving DecidableEq, Repr

def Phase.name : Phase → String
  | .handshake => "Handshake"
  | .status => "Status"
  | .login => "Login"
  | .play => "Play"

/-- What a handshake asks for. -/
inductive NextState
  | status
  | login
deriving DecidableEq, Repr

/-- Where a chat message is shown. -/
inductive ChatPosition
  | chat
  | system
  | gameInfo
deriving DecidableEq, Repr

inductive Hand
  | main
  | off
deriving DecidableEq, Repr

inductive ClientAction
  | respawn
  | requestStats
deriving DecidableEq, Repr

inductive Packet
  | handshake (protocolVersion : Int32) (serverAddress : String) (serverPort : UInt16)
      (nextState : NextState)
  | statusRequest
  | statusResponse (json : String)
  | pingRequest (payload : Int64)
  | pongResponse (payload : Int64)
  | loginStart (username : String) (uuid : Option Uuid)
  | loginChallenge (serverId : String) (verifyToken : Bytes)
  | loginChallengeResponse (verifyToken : Bytes) (sessionToken : String)
  | setCompression (threshold : Int32)
  | loginSuccess (uuid : Uuid) (username : String)
  | loginDisconnect (reason : TextComponent)
  | joinGame (entityId : Int32) (gameMode : UInt8) (dimension : Int32)
      (difficulty maxPlayers : UInt8) (viewDistance : Int32) (hardcore : Bool)
  | chatMessage (message : TextComponent) (sender : Option String) (position : ChatPosition)
  | clientChat (message : String)
  | clientSettings (locale : String) (viewDistance : UInt8) (chatColors : Bool) (mainHand : Hand)
  | keepAlive (id : Int64)
  | keepAliveResponse (id : Int64)
  | playerPosition (x y z : UInt64) (yaw pitch : UInt32) (onGround : Bool)
  | playerPositionAndLook (x y z : UInt64) (yaw pitch : UInt32) (teleportId : Int32)
  | teleportConfirm (teleportId : Int32)
  | animation (hand : Hand)
  | timeUpdate (worldAge timeOfDay : Int64)
  | updateHealth (health : UInt32) (food : Int32) (saturation : UInt32)
  | clientCommand (action : ClientAction)
  | spawnEntity (entityId : Int32) (uuid : Uuid) (entityType : Int32) (x y z : UInt64)
      (pitch yaw : UInt32)
  | removeEntities (entityIds : List Int32)
  | blockChange (position : BlockPos) (blockState : Int32)
  | soundEffect (soundId x y z : Int32) (volume pitch : UInt32)
  | disconnect (reason : TextComponent)
deriving Repr

/-- What a packet is, without its fields. -/
inductive Kind
  | handshake
  | statusRequest
  | statusResponse
  | pingRequest
  | pongResponse
  | loginStart
  | loginChallenge
  | loginChallengeResponse
  | setCompression
  | loginSuccess
  | loginDisconnect
  | joinGame
  | chatMessage
  | clientChat
  | clientSettings
  | keepAlive
  | keepAliveResponse
  | playerPosition
  | playerPositionAndLook
  | teleportConfirm
  | animation
  | timeUpdate
  | updateHealth
  | clientCommand
  | spawnEntity
  | removeEntities
  | blockChange
  | soundEffect
  | disconnect
deriving DecidableEq, Repr

def Kind.name : Kind → String
  | .handshake => "Handshake"
  | .statusRequest => "StatusRequest"
  | .statusResponse => "StatusResponse"
  | .pingRequest => "PingRequest"
  | .pongResponse => "PongResponse"
  | .loginStart => "LoginStart"
  | .loginChallenge => "LoginChallenge"
  | .loginChallengeResponse => "LoginChallengeResponse"
  | .setCompression => "SetCompression"
  | .loginSuccess => "LoginSuccess"
  | .loginDisconnect => "LoginDisconnect"
  | .joinGame => "JoinGame"
  | .chatMessage => "ChatMessage"
  | .clientChat => "ClientChat"
  | .clientSettings => "ClientSettings"
  | .keepAlive => "KeepAlive"
  | .keepAliveResponse => "KeepAliveResponse"
  | .playerPosition => "PlayerPosition"
  | .playerPositionAndLook => "PlayerPositionAndLook"
  | .teleportConfirm => "TeleportConfirm"
  | .animation => "Animation"
  | .timeUpdate => "TimeUpdate"
  | .updateHealth => "UpdateHealth"
  | .clientCommand => "ClientCommand"
  | .spawnEntity => "SpawnEntity"
  | .removeEntities => "RemoveEntities"
  | .blockChange => "BlockChange"
  | .soundEffect => "SoundEffect"
  | .disconnect => "Disconnect"

def Kind.phase : Kind → Phase
  | .handshake => .handshake
  | .statusRequest | .statusResponse | .pingRequest | .pongResponse => .status
  | .loginStart | .loginChallenge | .loginChallengeResponse | .setCompression | .loginSuccess
  | .loginDisconnect => .login
  | _ => .play

namespace Packet

def kind : Packet → Kind
  | .handshake .. => .handshake
  | .statusRequest => .statusRequest
  | .statusResponse .. => .statusResponse
  | .pingRequest .. => .pingRequest
  | .pongResponse .. => .pongResponse
  | .loginStart .. => .loginStart
  | .loginChallenge .. => .loginChallenge
  | .loginChallengeResponse .. => .loginChallengeResponse
  | .setCompression .. => .setCompression
  | .loginSuccess .. => .loginSuccess
  | .loginDisconnect .. => .loginDisconnect
  | .joinGame .. => .joinGame
  | .chatMessage .. => .chatMessage
  | .clientChat .. => .clientChat
  | .clientSettings .. => .clientSettings
  | .keepAlive .. => .keepAlive
  | .keepAliveResponse .. => .keepAliveResponse
  | .playerPosition .. => .playerPosition
  | .playerPositionAndLook .. => .playerPositionAndLook
  | .teleportConfirm .. => .teleportConfirm
  | .animation .. => .animation
  | .timeUpdate .. => .timeUpdate
  | .updateHealth .. => .updateHealth
  | .clientCommand .. => .clientCommand
  | .spawnEntity .. => .spawnEntity
  | .removeEntities .. => .removeEntities
  | .blockChange .. => .blockChange
  | .soundEffect .. => .soundEffect
  | .disconnect .. => .disconnect

def phase (p : Packet) : Phase := p.kind.phase

end Packet
end EditionGateway.Backend
