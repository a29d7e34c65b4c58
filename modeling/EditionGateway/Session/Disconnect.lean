/-!
Why a session was closed, as other parts of the gateway and the player are told.
-/

namespace EditionGateway

inductive DisconnectCategory
  | transportFailure
  | authFailure
  | backendUnreachable
  | serverShutdown
  | clientQuit
deriving DecidableEq, Repr

namespace DisconnectCategory

def all : List DisconnectCategory :=
  [.transportFailure, .authFailure, .backendUnreachable, .serverShutdown, .clientQuit]

def code : DisconnectCategory → Nat
  | .transportFailure => 1
  | .authFailure => 2
  | .backendUnreachable => 3
  | .serverShutdown => 4
  | .clientQuit => 5

def defaultMessage : DisconnectCategory → String
  | .transportFailure => "Connection lost"
  | .authFailure => "Authentication failed"
  | .backendUnreachable => "Could not connect to the server"
  | .serverShutdown => "Server closed"
  | .clientQuit => "Disconnected"

def isFailure : DisconnectCategory → Bool
  | .transportFailure => true
  | .authFailure => true
  | .backendUnreachable => true
  | .serverShutdown => false
  | .clientQuit => false

def label : DisconnectCategory → String
  | .transportFailure => "TRANSPORT_FAILURE"
  | .authFailure => "AUTH_FAILURE"
  | .backendUnreachable => "BACKEND_UNREACHABLE"
  | .serverShutdown => "SERVER_SHUTDOWN"
  | .clientQuit => "CLIENT_QUIT"

end DisconnectCategory

structure DisconnectReason where
  category : DisconnectCategory
  message : String
deriving DecidableEq, Repr

namespace DisconnectReason

def ofCategory (c : DisconnectCategory) : DisconnectReason := ⟨c, c.defaultMessage⟩

def label (r : DisconnectReason) : String := r.message ++ " (" ++ r.category.label ++ ")"

end DisconnectReason
end EditionGateway
