import EditionGateway.Linking.Error
import EditionGateway.Shape.Codec

/-!
Why a session ended, orderly endings included, or why the gateway could not start.
-/

namespace EditionGateway

inductive GatewayError
  | clientLink (e : LinkError)
  | backendLink (e : LinkError)
  | codec (e : CodecError)
  | session (e : SessionError)
  | backend (e : BackendError)
  | config
  | configFile (detail : String)
  | unsupportedVersion (protocol : UInt32)
  | handshake (violation : String)
  | packsRefused
  | handshakeTimeout (limit : Duration)
  | idleTimeout (limit : Duration)
  | clientQuit
  | backendClosed (reason : String)
  | kicked (reason : DisconnectReason)
  | shuttingDown
deriving DecidableEq, Repr

namespace GatewayError

def message : GatewayError → String
  | .clientLink e => e.message
  | .backendLink e => "backend link failed: " ++ e.message
  | .codec e => e.message
  | .session e => e.message
  | .backend e => e.message
  | .config => "invalid config: not the expected object"
  | .configFile detail => "cannot read config: " ++ detail
  | .unsupportedVersion protocol => "unsupported client protocol " ++ toString protocol.toNat
  | .handshake violation => "handshake violation: " ++ violation
  | .packsRefused => "client refused the resource packs"
  | .handshakeTimeout limit => "handshake not finished within " ++ limit.label
  | .idleTimeout limit => "client silent for " ++ limit.label
  | .clientQuit => "client disconnected"
  | .backendClosed reason => "backend closed the session: " ++ reason
  | .kicked reason => "session closed: " ++ reason.message
  | .shuttingDown => "gateway shutting down"

/-- The name of the cause, without its circumstances. -/
def kind : GatewayError → String
  | .clientLink _ => "Transport"
  | .backendLink _ => "BackendLink"
  | .codec _ => "Protocol"
  | .session _ => "Session"
  | .backend _ => "Downstream"
  | .config => "Config"
  | .configFile _ => "ConfigFile"
  | .unsupportedVersion _ => "UnsupportedVersion"
  | .handshake _ => "Handshake"
  | .packsRefused => "PacksRefused"
  | .handshakeTimeout _ => "HandshakeTimeout"
  | .idleTimeout _ => "IdleTimeout"
  | .clientQuit => "ClientQuit"
  | .backendClosed _ => "BackendClosed"
  | .kicked _ => "Kicked"
  | .shuttingDown => "ShuttingDown"

def category : GatewayError → DisconnectCategory
  | .clientLink _ | .backendLink _ | .codec _ | .idleTimeout _ | .handshakeTimeout _ =>
    .transportFailure
  | .session _ | .unsupportedVersion _ | .handshake _ | .packsRefused => .authFailure
  | .backend e => e.category
  | .config | .configFile _ | .shuttingDown => .serverShutdown
  | .backendClosed _ | .clientQuit => .clientQuit
  | .kicked reason => reason.category

/-- What the player is told. -/
def disconnectReason (e : GatewayError) : DisconnectReason :=
  match e with
  | .backend b => ⟨b.category, b.userMessage⟩
  | .backendClosed reason => ⟨e.category, reason⟩
  | .kicked reason => reason
  | _ => .ofCategory e.category

/-- There is no point in telling the player anything once the client link itself is gone. -/
def clientReachable : GatewayError → Bool
  | .clientLink _ => false
  | .idleTimeout _ => false
  | .clientQuit => false
  | _ => true

def isOrderly (e : GatewayError) : Bool := !e.category.isFailure

end GatewayError
end EditionGateway
