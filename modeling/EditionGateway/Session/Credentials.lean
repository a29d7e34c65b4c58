import EditionGateway.Identity.Uuid
import EditionGateway.Session.Error
import EditionGateway.Text.Blank

/-!
Who a player claims to be, and how the claim is checked for a backend that asks.
-/

namespace EditionGateway

structure Credentials where
  username : String
  uuid : Uuid
  xuid : String
  token : String
deriving DecidableEq, Repr

namespace Credentials

def maxUsernameLength : Nat := 16

/-- A user name has between 1 and 16 characters and no control character among them. -/
def validate (c : Credentials) : Except SessionError Unit :=
  if c.username.isEmpty then .error (.authFailed "empty username")
  else if maxUsernameLength < c.username.length then
    .error (.authFailed ("username longer than " ++ toString maxUsernameLength ++ " characters"))
  else if c.username.toList.any Text.isControl then
    .error (.authFailed "username contains control characters")
  else .ok ()

end Credentials

/-- A player as the identity service knows him. -/
structure Profile where
  name : String
  uuid : Uuid
deriving DecidableEq, Repr

/-- Confirms a user name by a token, or refuses it. -/
abbrev IdentityService := String → String → Except SessionError Profile

/-- The identifier of a player whose name nobody has confirmed. -/
def offlineUuid (username : String) : Uuid :=
  Uuid.ofName .objectNames (Bytes.ofText ("OfflinePlayer:" ++ username))

/-- Confirms every name. -/
def IdentityService.offline : IdentityService := fun username _ =>
  .ok ⟨username, offlineUuid username⟩

end EditionGateway
