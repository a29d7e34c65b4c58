import EditionGateway.Duration
import EditionGateway.Link.Error
import EditionGateway.Session.Error
import EditionGateway.Session.Disconnect

/-!
Why the link to the backend could not be opened, or the backend not be asked for its status.
-/

namespace EditionGateway

inductive BackendError
  | unreachable (detail : String)
  | rejected (reason : String)
  | identity (e : SessionError)
  | protocolMismatch (detail : String)
  | timedOut (limit : Duration)
  | link (e : LinkError)
deriving DecidableEq, Repr

namespace BackendError

def message : BackendError → String
  | .unreachable detail => "backend unreachable: " ++ detail
  | .rejected reason => "rejected by backend: " ++ reason
  | .identity e => e.message
  | .protocolMismatch detail => "protocol mismatch: " ++ detail
  | .timedOut limit => "backend did not finish within " ++ limit.label
  | .link e => e.message

/-- The name of the cause, without its circumstances. -/
def kind : BackendError → String
  | .unreachable _ => "Unreachable"
  | .rejected _ => "Rejected"
  | .identity _ => "Identity"
  | .protocolMismatch _ => "ProtocolMismatch"
  | .timedOut _ => "Timeout"
  | .link _ => "Transport"

def category : BackendError → DisconnectCategory
  | .identity _ => .authFailure
  | _ => .backendUnreachable

/-- What the player is told. -/
def userMessage : BackendError → String
  | .rejected reason => "Rejected by the server: " ++ reason
  | .identity _ => DisconnectCategory.authFailure.defaultMessage
  | .protocolMismatch _ => "Incompatible server version"
  | .unreachable _ | .timedOut _ | .link _ => DisconnectCategory.backendUnreachable.defaultMessage

end BackendError
end EditionGateway
