import EditionGateway.Geometry
import EditionGateway.Identity.Ids
import EditionGateway.Identity.Uuid

/-!
The packets of the client-facing edition. Floats are kept as their bits.
-/

namespace EditionGateway.Client

/-- How a login went, or that the player may appear. -/
inductive PlayStatus
  | loginSuccess
  | failedClient
  | failedServer
  | playerSpawn
  | serverFull
deriving DecidableEq, Repr

/-- The client's answer to the offer of resource packs. -/
inductive PackResponse
  | completed
  | noneRequired
  | failed
deriving DecidableEq, Repr

/-- Where and how a text is shown. -/
inductive TextKind
  | raw
  | chat
  | system
  | tip
deriving DecidableEq, Repr

/-- How a player got to a place. -/
inductive MoveMode
  | normal
  | reset
  | teleport
deriving DecidableEq, Repr

/-- What a player does. -/
inductive AnimateAction
  | swingArm
  | wakeUp
  | criticalHit
deriving DecidableEq, Repr

/-- How far a respawn has come. -/
inductive RespawnState
  | searching
  | readyToSpawn
  | clientReady
deriving DecidableEq, Repr

inductive GameMode
  | survival
  | creative
  | adventure
  | spectator
deriving DecidableEq, Repr

def GameMode.label : GameMode → String
  | .survival => "Survival"
  | .creative => "Creative"
  | .adventure => "Adventure"
  | .spectator => "Spectator"

inductive Packet
  | requestNetworkSettings (protocolVersion : UInt32)
  | networkSettings (compressionThreshold : UInt16)
  | login (protocolVersion : UInt32) (username : String) (uuid : Uuid) (xuid token : String)
  | clientData (payload : String)
  | playStatus (status : PlayStatus)
  | resourcePacksInfo (mustAccept : Bool) (packs : List String)
  | resourcePackClientResponse (status : PackResponse)
  | resourcePackStack (mustAccept : Bool) (packs : List String) (gameVersion : String)
  | startGame (runtimeId : RuntimeId) (gameMode : GameMode) (position : Vec3) (yaw pitch : UInt32)
      (dimension : Int32) (difficulty : UInt8) (hardcore : Bool)
  | text (kind : TextKind) (source message : String)
  | commandRequest (command : String)
  | movePlayer (runtimeId : RuntimeId) (position : Vec3) (pitch yaw headYaw : UInt32)
      (mode : MoveMode) (onGround : Bool)
  | animate (action : AnimateAction) (runtimeId : RuntimeId)
  | requestChunkRadius (radius : Int32)
  | chunkRadiusUpdated (radius : Int32)
  | setTime (time : Int32)
  | setHealth (health : Int32)
  | respawn (position : Vec3) (state : RespawnState) (runtimeId : RuntimeId)
  | addEntity (runtimeId : RuntimeId) (identifier : String) (position : Vec3) (pitch yaw : UInt32)
  | removeEntity (runtimeId : RuntimeId)
  | updateBlock (position : BlockPos) (blockRuntimeId : UInt32)
  | levelSoundEvent (sound : UInt32) (position : Vec3) (volume pitch : UInt32)
  | networkStackLatency (timestamp : UInt64) (needsResponse : Bool)
  | disconnect (hideScreen : Bool) (message : String)
deriving Repr

/-- What a packet is, without its fields. -/
inductive Kind
  | requestNetworkSettings
  | networkSettings
  | login
  | clientData
  | playStatus
  | resourcePacksInfo
  | resourcePackClientResponse
  | resourcePackStack
  | startGame
  | text
  | commandRequest
  | movePlayer
  | animate
  | requestChunkRadius
  | chunkRadiusUpdated
  | setTime
  | setHealth
  | respawn
  | addEntity
  | removeEntity
  | updateBlock
  | levelSoundEvent
  | networkStackLatency
  | disconnect
deriving DecidableEq, Repr

def Kind.name : Kind → String
  | .requestNetworkSettings => "RequestNetworkSettings"
  | .networkSettings => "NetworkSettings"
  | .login => "Login"
  | .clientData => "ClientData"
  | .playStatus => "PlayStatus"
  | .resourcePacksInfo => "ResourcePacksInfo"
  | .resourcePackClientResponse => "ResourcePackClientResponse"
  | .resourcePackStack => "ResourcePackStack"
  | .startGame => "StartGame"
  | .text => "Text"
  | .commandRequest => "CommandRequest"
  | .movePlayer => "MovePlayer"
  | .animate => "Animate"
  | .requestChunkRadius => "RequestChunkRadius"
  | .chunkRadiusUpdated => "ChunkRadiusUpdated"
  | .setTime => "SetTime"
  | .setHealth => "SetHealth"
  | .respawn => "Respawn"
  | .addEntity => "AddEntity"
  | .removeEntity => "RemoveEntity"
  | .updateBlock => "UpdateBlock"
  | .levelSoundEvent => "LevelSoundEvent"
  | .networkStackLatency => "NetworkStackLatency"
  | .disconnect => "Disconnect"

namespace Packet

def kind : Packet → Kind
  | .requestNetworkSettings .. => .requestNetworkSettings
  | .networkSettings .. => .networkSettings
  | .login .. => .login
  | .clientData .. => .clientData
  | .playStatus .. => .playStatus
  | .resourcePacksInfo .. => .resourcePacksInfo
  | .resourcePackClientResponse .. => .resourcePackClientResponse
  | .resourcePackStack .. => .resourcePackStack
  | .startGame .. => .startGame
  | .text .. => .text
  | .commandRequest .. => .commandRequest
  | .movePlayer .. => .movePlayer
  | .animate .. => .animate
  | .requestChunkRadius .. => .requestChunkRadius
  | .chunkRadiusUpdated .. => .chunkRadiusUpdated
  | .setTime .. => .setTime
  | .setHealth .. => .setHealth
  | .respawn .. => .respawn
  | .addEntity .. => .addEntity
  | .removeEntity .. => .removeEntity
  | .updateBlock .. => .updateBlock
  | .levelSoundEvent .. => .levelSoundEvent
  | .networkStackLatency .. => .networkStackLatency
  | .disconnect .. => .disconnect

/-- The packet that tells the player why the session ends. -/
def farewell (message : String) : Packet := .disconnect false message

/-- A line of chat that comes from no player. -/
def systemText (message : String) : Packet := .text .system "" message

end Packet
end EditionGateway.Client
