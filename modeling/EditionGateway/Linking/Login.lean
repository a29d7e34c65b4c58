import EditionGateway.Linking.Conversation
import EditionGateway.Session.Credentials

/-!
Logging a player in at the backend. The gateway greets and names the player; then the backend may
challenge the player and set the compression any number of times, until it lets him in or not.
-/

namespace EditionGateway

/-- What is needed to log a player in. `compression` is that of the stream to the backend. -/
structure Login where
  remote : RemoteConfig
  identity : IdentityService
  credentials : Credentials
  compression : Compression := .wrapped

namespace Login

/-- The packets that are sent before the backend says anything. -/
def opening (l : Login) : List Backend.Packet :=
  let uuid := match l.remote.auth with
    | .offline => some (offlineUuid l.credentials.username)
    | .online => none
  [l.remote.greeting .login, .loginStart l.credentials.username uuid]

/-- What a packet of the backend leads to. -/
inductive Reaction
  | answer (p : Backend.Packet)
  | compress (t : Threshold)
  | finish

/-- A threshold below zero turns the compression off. -/
def thresholdOf (t : Int32) : Threshold := if t.toInt < 0 then none else some t.toInt.toNat

def react (l : Login) : Backend.Packet → Except BackendError Reaction
  | .loginChallenge _ verifyToken =>
    match l.remote.auth with
    | .offline => .error (.protocolMismatch "backend requires online authentication")
    | .online =>
      match l.identity l.credentials.username l.credentials.token with
      | .ok _ => .ok (.answer (.loginChallengeResponse verifyToken l.credentials.token))
      | .error e => .error (.identity e)
  | .setCompression t => .ok (.compress (thresholdOf t))
  | .loginSuccess .. => .ok .finish
  | .loginDisconnect reason => .error (.rejected reason.plain)
  | p => .error (.protocolMismatch ("unexpected " ++ p.kind.name ++ " during login"))

/-- Handles the next packet of the backend. -/
def advance (l : Login) (s : StreamEnd) : Progress Unit × StreamEnd :=
  match s.receivePacket with
  | (none, s) => (.waiting, s)
  | (some (.error e), s) => (.done (.error e), s)
  | (some (.ok none), s) => (.done (.error (.rejected "connection closed during login")), s)
  | (some (.ok (some p)), s) =>
    match l.react p with
    | .error e => (.done (.error e), s)
    | .ok (.compress t) => (.sent [], s.setThreshold t)
    | .ok .finish => (.done (.ok ()), s)
    | .ok (.answer p) =>
      match s.sendPacket p with
      | .ok b => (.sent b, s)
      | .error e => (.done (.error e), s)

def conversation (l : Login) : Conversation Unit Unit where
  state := ()
  advance _ s :=
    let (p, s) := l.advance s
    (p, (), s)

end Login
end EditionGateway
