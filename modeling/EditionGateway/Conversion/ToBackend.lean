import EditionGateway.Backend.Packet
import EditionGateway.Client.Packet
import EditionGateway.Conversion.Update
import EditionGateway.Conversion.Coordinate
import EditionGateway.Conversion.Mappings

/-!
From packets of the client to packets for the backend.
-/

namespace EditionGateway.Conversion

/-- Converts a packet in a session: the packets for the other side, or a failure, and what the session
remembers afterwards. -/
abbrev Converter (source target : Type) :=
  Mappings → SessionContext → source → Update (List target)

abbrev ToBackend := Converter Client.Packet Backend.Packet

namespace ToBackend

def maxChatLength : Nat := 256

def isBlankText (s : String) : Bool := s.toList.all Text.isBlank

def truncate (cs : List Char) : String := String.ofList (cs.take maxChatLength)

/-- What a player says goes on, cut to the longest line that the backend takes. A blank line is
dropped. -/
def text : ToBackend
  | _, c, .text kind _ message =>
    if (kind = .chat ∨ kind = .raw) ∧ ¬ isBlankText message then
      .ok ([.clientChat (truncate message.toList)], c)
    else .ok ([], c)
  | _, c, _ => .ok ([], c)

/-- A command becomes a line of chat with one slash in front. -/
def command : ToBackend
  | _, c, .commandRequest command =>
    let body := (Text.trim command.toList).dropWhile (· = '/')
    if body.isEmpty then .ok ([], c) else .ok ([.clientChat (truncate ('/' :: body))], c)
  | _, c, _ => .ok ([], c)

/-- A movement confirms the teleport that is pending, if there is one. The backend counts from the
feet, the client from the eyes. -/
def movePlayer : ToBackend
  | _, _, .movePlayer _ position pitch yaw _ _ onGround => do
    Update.require (position.isFinite ∧ isFinite32 pitch ∧ isFinite32 yaw)
      (.invalidValue "position" "not finite")
    Update.set (·.setPosition position)
    let pending ← Update.change (·.takePendingTeleport)
    let place := Backend.Packet.playerPosition (widen position.x)
      (widen (sub position.y eyeHeight)) (widen position.z) yaw pitch onGround
    return (pending.map Backend.Packet.teleportConfirm).toList ++ [place]
  | _, c, _ => .ok ([], c)

def animate : ToBackend
  | _, c, .animate .swingArm _ => .ok ([.animation .main], c)
  | _, c, _ => .ok ([], c)

def minViewDistance : Int32 := 2

def maxViewDistance : Int32 := 32

def clampView (radius : Int32) : UInt8 :=
  (max minViewDistance (min radius maxViewDistance)).toInt.toNat.toUInt8

/-- The chunk radius goes on with the other settings that the backend wants to know. -/
def chunkRadius : ToBackend
  | _, c, .requestChunkRadius radius =>
    let locale := (c.clientData.map (·.locale)).getD (Text.lowerAscii ClientData.defaultLanguage)
    .ok ([.clientSettings locale (clampView radius) true .main], c)
  | _, c, _ => .ok ([], c)

def respawn : ToBackend
  | _, c, .respawn _ .clientReady _ => .ok ([.clientCommand .respawn], c)
  | _, c, _ => .ok ([], c)

/-- The answer to a latency probe answers the keep-alive that the probe stands for. The client's own
probes are not passed on. -/
def latency : ToBackend
  | _, c, .networkStackLatency timestamp needsResponse =>
    if needsResponse then .ok ([], c)
    else if timestamp < 0x8000000000000000 then
      .ok ([.keepAliveResponse (Int64.ofNat timestamp.toNat)], c)
    else .error (.invalidValue "timestamp" (toString timestamp.toNat))
  | _, c, _ => .ok ([], c)

/-- The kinds of packet that have a conversion, each with its converter. -/
def converters : List (Client.Kind × ToBackend) := [
  (.text, text),
  (.commandRequest, command),
  (.movePlayer, movePlayer),
  (.animate, animate),
  (.requestChunkRadius, chunkRadius),
  (.respawn, respawn),
  (.networkStackLatency, latency)]

end ToBackend
end EditionGateway.Conversion
