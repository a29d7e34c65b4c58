import EditionGateway.Discovery.StatusDocument
import EditionGateway.Linking.Conversation

/-!
Asking the backend for its status, and measuring how long it takes to answer a ping. A backend that
does not answer the ping still has a status.
-/

namespace EditionGateway

/-- How far the query has come. -/
inductive StatusQuery
  | awaitingStatus
  | awaitingPong (status : StatusDocument) (sentAt : Nat)
deriving Repr

namespace StatusQuery

/-- The packets that are sent before the backend says anything. -/
def opening (r : RemoteConfig) : List Backend.Packet := [r.greeting .status, .statusRequest]

def report (s : StatusDocument) (latencyMs : Option UInt64) : BackendStatus where
  motd := s.description.text
  onlinePlayers := s.onlinePlayers
  maxPlayers := s.maxPlayers
  versionName := s.versionName
  protocol := s.protocol
  latencyMs := latencyMs

/-- Handles the next packet of the backend at the time `now`. `payload` is the number that a pong
has to repeat. -/
def advance (payload : Int64) (now : Nat) (q : StatusQuery) (s : StreamEnd) :
    Progress BackendStatus × StatusQuery × StreamEnd :=
  match q, s.receivePacket with
  | q, (none, s) => (.waiting, q, s)
  | .awaitingPong status sentAt, (some (.ok (some (.pongResponse echoed))), s) =>
    let latency := (Duration.mk (now - sentAt)).millis
    (.done (.ok (report status (if echoed = payload then some (.ofNat latency) else none))), q, s)
  | .awaitingPong status _, (some _, s) => (.done (.ok (report status none)), q, s)
  | .awaitingStatus, (some (.error e), s) => (.done (.error e), q, s)
  | .awaitingStatus, (some (.ok none), s) =>
    (.done (.error (.rejected "closed during status")), q, s)
  | .awaitingStatus, (some (.ok (some (.statusResponse json))), s) =>
    match StatusDocument.parse json with
    | none => (.done (.error (.protocolMismatch CodecError.unreadableJson.message)), q, s)
    | some status =>
      match s.sendPacket (.pingRequest payload) with
      | .ok b => (.sent b, .awaitingPong status now, s)
      | .error e => (.done (.error e), q, s)
  | .awaitingStatus, (some (.ok (some p)), s) =>
    (.done (.error (.protocolMismatch ("expected status response, got " ++ p.kind.name))), q, s)

/-- What comes of a query by the limit of time for all of it. -/
def outcome (limit : Duration) (result : Option (Except BackendError BackendStatus)) :
    Except BackendError BackendStatus :=
  result.getD (.error (.timedOut limit))

def conversation (payload : Int64) (now : Nat) : Conversation StatusQuery BackendStatus where
  state := .awaitingStatus
  advance := advance payload now

end StatusQuery
end EditionGateway
