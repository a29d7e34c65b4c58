import EditionGateway.Gateway.Error
import EditionGateway.Json.Access

/-!
Errors as they are named in JSON: by a kind and what else belongs to it. An unknown kind stands for
the last error of the list.
-/

namespace EditionGateway

/-- The category of this name; capitals and underscores make no difference. -/
def DisconnectCategory.named (name : String) : DisconnectCategory :=
  let letters (s : String) := (s.toList.filter (· ≠ '_')).map Char.toLower
  (all.find? fun c => letters c.label = letters name).getD .clientQuit

def DisconnectReason.named (j : Json) : DisconnectReason :=
  ⟨.named (j.textAt "category"), j.textAt "message"⟩

def Lifecycle.named (name : String) : Lifecycle :=
  (all.find? fun s => s.label = name).getD .established

def SessionError.named (j : Json) : SessionError :=
  let id : SessionId := ⟨UInt64.ofNat (j.natAt "id")⟩
  let message := j.textAt "message"
  match j.textAt "kind" with
  | "AlreadyRegistered" => .alreadyRegistered id
  | "Closed" => .closed id
  | "InvalidTransition" => .invalidTransition (.named (j.textAt "from")) (.named (j.textAt "to"))
  | "AuthFailed" => .authFailed message
  | "MalformedClientData" => .malformedClientData message
  | "AlreadySet" => .alreadySet "auth data"
  | _ => .shuttingDown

def LinkError.named (j : Json) : LinkError :=
  let message := j.textAt "message"
  match j.textAt "kind" with
  | "ConnectionClosed" => .closed message
  | "SendFailed" => .sendFailed (.system message)
  | "ReceiveFailed" => .receiveFailed (.system message)
  | "AcceptFailed" => .acceptFailed (.system message)
  | "ConnectFailed" => .connectFailed (.system message)
  | "Timeout" => .timedOut message
  | "MalformedFrame" => .malformed (.other message)
  | "Compression" => .compression message
  | _ => .shutdown

/-- The error of a link that is the cause of another error. Only three kinds are told apart. -/
def LinkError.namedCause (j : Json) : LinkError :=
  match LinkError.named j with
  | .closed reason => .closed reason
  | .timedOut what => .timedOut what
  | .malformed m => .malformed m
  | _ => .shutdown

def BackendError.named (j : Json) : BackendError :=
  let message := j.textAt "message"
  match j.textAt "kind" with
  | "Unreachable" => .unreachable message
  | "Rejected" => .rejected message
  | "Identity" => .identity (.authFailed message)
  | "ProtocolMismatch" => .protocolMismatch message
  | "Timeout" => .timedOut (.ofMicros (j.natAt "micros"))
  | _ => .link (.namedCause (j.get "inner"))

def GatewayError.named (j : Json) : GatewayError :=
  let message := j.textAt "message"
  let limit := Duration.ofMicros (j.natAt "micros")
  let inner := j.get "inner"
  match j.textAt "kind" with
  | "Transport" => .clientLink (.namedCause inner)
  | "BackendLink" => .backendLink (.namedCause inner)
  | "Protocol" => .codec (.invalidMessage message)
  | "Session" => .session (.authFailed message)
  | "Downstream" => .backend (.named inner)
  | "ConfigFile" => .configFile message
  | "UnsupportedVersion" => .unsupportedVersion (UInt32.ofNat (j.natAt "protocol"))
  | "Handshake" => .handshake "login before network settings"
  | "PacksRefused" => .packsRefused
  | "HandshakeTimeout" => .handshakeTimeout limit
  | "IdleTimeout" => .idleTimeout limit
  | "ClientQuit" => .clientQuit
  | "BackendClosed" => .backendClosed message
  | "Kicked" => .kicked (.named j)
  | _ => .shuttingDown

end EditionGateway
