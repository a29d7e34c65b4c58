import EditionGateway.Identity.Ids
import EditionGateway.Session.Lifecycle

/-!
What can go wrong with one session.
-/

namespace EditionGateway

inductive SessionError
  | authFailed (reason : String)
  | malformedClientData (detail : String)
  | alreadySet (what : String)
  | invalidTransition (source target : Lifecycle)
  | alreadyRegistered (id : SessionId)
  | shuttingDown
  | closed (id : SessionId)
deriving DecidableEq, Repr

namespace SessionError

def message : SessionError → String
  | .authFailed reason => "authentication failed: " ++ reason
  | .malformedClientData detail => "malformed client data: " ++ detail
  | .alreadySet what => what ++ " already set"
  | .invalidTransition source target =>
    "invalid transition from " ++ source.label ++ " to " ++ target.label
  | .alreadyRegistered id => "session " ++ id.label ++ " is already registered"
  | .shuttingDown => "registry is shutting down"
  | .closed id => "session " ++ id.label ++ " is closed"

/-- The name of the cause, without its circumstances. -/
def kind : SessionError → String
  | .authFailed _ => "AuthFailed"
  | .malformedClientData _ => "MalformedClientData"
  | .alreadySet _ => "AlreadySet"
  | .invalidTransition .. => "InvalidTransition"
  | .alreadyRegistered _ => "AlreadyRegistered"
  | .shuttingDown => "ShuttingDown"
  | .closed _ => "Closed"

/-- The error is about who the player is. -/
def isAuth : SessionError → Bool
  | .authFailed _ => true
  | .malformedClientData _ => true
  | _ => false

end SessionError
end EditionGateway
