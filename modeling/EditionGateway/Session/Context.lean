import EditionGateway.Client.Version
import EditionGateway.Geometry
import EditionGateway.Session.ClientData
import EditionGateway.Session.Credentials
import EditionGateway.Table

/-!
What a session remembers from packet to packet: who the player is, which entity of the backend the
client knows by which number, the teleport that is still to be confirmed, and the last place.
-/

namespace EditionGateway

/-- The entities of the backend that the client has been given numbers for. -/
structure EntityMap where
  byBackend : Table Int32 RuntimeId := []
  player : Option Int32 := none
deriving Repr

structure SessionContext where
  id : SessionId
  auth : Option Credentials := none
  clientData : Option ClientData := none
  version : Option Client.Version := none
  nextRuntimeId : UInt64 := 2
  entities : EntityMap := {}
  pendingTeleport : Option Int32 := none
  position : Option Vec3 := none
deriving Repr

namespace SessionContext

def username? (c : SessionContext) : Option String := c.auth.map (·.username)

/-- The credentials are set once. -/
def setAuth (c : SessionContext) (a : Credentials) : Except SessionError SessionContext :=
  match c.auth with
  | none => .ok { c with auth := some a }
  | some _ => .error (.alreadySet "auth data")

/-- The client data are set once. -/
def setClientData (c : SessionContext) (d : ClientData) : Except SessionError SessionContext :=
  match c.clientData with
  | none => .ok { c with clientData := some d }
  | some _ => .error (.alreadySet "client data")

/-- The version is set once. -/
def setVersion (c : SessionContext) (v : Client.Version) : Except SessionError SessionContext :=
  match c.version with
  | none => .ok { c with version := some v }
  | some _ => .error (.alreadySet "codec version")

def isAuthenticated (c : SessionContext) : Bool := c.auth.isSome && c.clientData.isSome

/-- Hands out a number that no entity has had. -/
def allocateRuntimeId (c : SessionContext) : RuntimeId × SessionContext :=
  (⟨c.nextRuntimeId⟩, { c with nextRuntimeId := c.nextRuntimeId + 1 })

/-- Makes an entity of the backend the client's own player, and forgets the one that was. -/
def bindPlayer (c : SessionContext) (entity : Int32) : SessionContext :=
  let kept := match c.entities.player with
    | some old => c.entities.byBackend.erase old
    | none => c.entities.byBackend
  { c with entities := { byBackend := kept.insert entity .player, player := some entity } }

/-- The number of an entity, a new one if it has none. -/
def mapEntity (c : SessionContext) (entity : Int32) : RuntimeId × SessionContext :=
  match c.entities.byBackend.get? entity with
  | some id => (id, c)
  | none =>
    let (id, c) := c.allocateRuntimeId
    (id, { c with
      entities := { c.entities with byBackend := c.entities.byBackend.insert entity id } })

def runtimeId? (c : SessionContext) (entity : Int32) : Option RuntimeId :=
  c.entities.byBackend.get? entity

/-- Forgets an entity and gives the number it had. The player is never forgotten. -/
def forgetEntity (c : SessionContext) (entity : Int32) : Option RuntimeId × SessionContext :=
  if c.entities.player = some entity then (none, c)
  else
    (c.entities.byBackend.get? entity,
      { c with entities := { c.entities with byBackend := c.entities.byBackend.erase entity } })

def entityCount (c : SessionContext) : Nat := c.entities.byBackend.length

def setPendingTeleport (c : SessionContext) (teleport : Int32) : SessionContext :=
  { c with pendingTeleport := some teleport }

def takePendingTeleport (c : SessionContext) : Option Int32 × SessionContext :=
  (c.pendingTeleport, { c with pendingTeleport := none })

def setPosition (c : SessionContext) (p : Vec3) : SessionContext := { c with position := some p }

end SessionContext
end EditionGateway
