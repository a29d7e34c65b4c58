import EditionGateway.Text.Legacy
import EditionGateway.Conversion.ToBackend

/-!
From packets of the backend to packets for the client.
-/

namespace EditionGateway.Conversion

abbrev ToClient := Converter Backend.Packet Client.Packet

namespace ToClient

/-- Above the hot bar a text stands alone; a player's line begins with his name. -/
def chatMessage : ToClient
  | _, c, .chatMessage message sender position =>
    let body := message.legacy
    match sender, position with
    | _, .gameInfo => .ok ([.text .tip "" body], c)
    | some name, _ => .ok ([.text .chat name (name ++ ": " ++ body)], c)
    | none, _ => .ok ([.text .system "" body], c)
  | _, c, _ => .ok ([], c)

def gameMode (code : UInt8) : Client.GameMode :=
  match code with
  | 1 => .creative
  | 2 => .adventure
  | 3 => .spectator
  | _ => .survival

def dimension? (code : Int32) : Option Int32 :=
  if code = 0 then some 0 else if code = -1 then some 1 else if code = 1 then some 2 else none

/-- Joining binds the player's entity. -/
def joinGame : ToClient
  | _, _, .joinGame entity mode dimension difficulty _ view hardcore => do
    let dimension ← Update.given (dimension? dimension)
      (.invalidValue "dimension" (toString dimension.toInt))
    Update.set (·.bindPlayer entity)
    let position ← Update.read (·.position)
    return [.startGame .player (gameMode mode) (position.getD {}) 0 0 dimension difficulty hardcore,
      .chunkRadiusUpdated view]
  | _, c, _ => .ok ([], c)

/-- A keep-alive becomes a latency probe, whose answer carries the same number back. -/
def keepAlive : ToClient
  | _, c, .keepAlive id =>
    if 0 ≤ id.toInt then .ok ([.networkStackLatency (UInt64.ofNat id.toInt.toNat) true], c)
    else .error (.invalidValue "keep-alive id" (toString id.toInt))
  | _, c, _ => .ok ([], c)

/-- A teleport is to be confirmed with the next movement. -/
def positionAndLook : ToClient
  | _, _, .playerPositionAndLook x y z yaw pitch teleport => do
    let position : Vec3 := ⟨narrow x, add (narrow y) eyeHeight, narrow z⟩
    Update.require position.isFinite (.invalidValue "position" "not finite")
    Update.set (·.setPendingTeleport teleport)
    Update.set (·.setPosition position)
    return [.movePlayer .player position pitch yaw yaw .teleport false]
  | _, c, _ => .ok ([], c)

def ticksPerDay : Nat := 24000

/-- A negative time of day stands for a clock that is stopped at that time. -/
def timeUpdate : ToClient
  | _, c, .timeUpdate _ timeOfDay =>
    .ok ([.setTime (Int32.ofNat (timeOfDay.toInt.natAbs % ticksPerDay))], c)
  | _, c, _ => .ok ([], c)

/-- Any remainder of health counts as a whole point. -/
def updateHealth : ToClient
  | _, c, .updateHealth health _ _ =>
    if isFinite32 health then .ok ([.setHealth (ceilNat health)], c)
    else .error (.invalidValue "health" "not finite")
  | _, c, _ => .ok ([], c)

/-- An entity whose type has no name at the client gets no number. -/
def spawnEntity : ToClient
  | m, _, .spawnEntity entity _ type x y z pitch yaw => do
    let identifier ← Update.given (m.entity? type) (.noMapping "entity" type)
    let id ← Update.change (·.mapEntity entity)
    return [.addEntity id identifier ⟨narrow x, narrow y, narrow z⟩ pitch yaw]
  | _, c, _ => .ok ([], c)

/-- Forgets the entities one after the other; those that had a number, in order. -/
def forgetAll (c : SessionContext) (entities : List Int32) : List RuntimeId × SessionContext :=
  let (ids, c) := entities.foldl
    (fun (ids, c) entity =>
      match c.forgetEntity entity with
      | (some id, c) => (id :: ids, c)
      | (none, c) => (ids, c))
    ([], c)
  (ids.reverse, c)

def removeEntities : ToClient
  | _, _, .removeEntities entities => do
    let ids ← Update.change (forgetAll · entities)
    return ids.map .removeEntity
  | _, c, _ => .ok ([], c)

def blockChange : ToClient
  | m, c, .blockChange position state =>
    match m.block? state with
    | some block => .ok ([.updateBlock position block], c)
    | none => .error (.noMapping "block" state)
  | _, c, _ => .ok ([], c)

/-- The backend gives the place of a sound in eighths of a block. -/
def soundEffect : ToClient
  | m, c, .soundEffect id x y z volume pitch =>
    match m.sound? id with
    | some sound => .ok ([.levelSoundEvent sound ⟨eighths x, eighths y, eighths z⟩ volume pitch], c)
    | none => .error (.noMapping "sound" id)
  | _, c, _ => .ok ([], c)

def disconnect : ToClient
  | _, c, .disconnect reason => .ok ([.farewell reason.legacy], c)
  | _, c, _ => .ok ([], c)

/-- The kinds of packet that have a conversion, each with its converter. -/
def converters : List (Backend.Kind × ToClient) := [
  (.chatMessage, chatMessage),
  (.joinGame, joinGame),
  (.keepAlive, keepAlive),
  (.playerPositionAndLook, positionAndLook),
  (.timeUpdate, timeUpdate),
  (.updateHealth, updateHealth),
  (.spawnEntity, spawnEntity),
  (.removeEntities, removeEntities),
  (.blockChange, blockChange),
  (.soundEffect, soundEffect),
  (.disconnect, disconnect)]

end ToClient
end EditionGateway.Conversion
