import EditionGateway.Gateway.Error
import EditionGateway.Json.Access

/-!
Errors as they are reported in JSON: by the name of the cause, with a message where the gateway
itself words it, or with the error that is the cause.
-/

namespace EditionGateway

/-- An object with further members. -/
def Json.also (j : Json) (ms : List (String × Json)) : Json :=
  match j with
  | .object old => .object (old ++ ms.map fun (k, v) => (some k, v))
  | _ => .obj ms

namespace Report

def cause (kind : String) : Json := .obj [("error", kind)]

def worded (kind message : String) : Json := .obj [("error", kind), ("message", message)]

/-- An error of which another one is the cause. -/
def nested (kind : String) (inner : Json) : Json := .obj [("error", kind), ("inner", inner)]

end Report

open Report

def Binary.Fault.kind : Binary.Fault → String
  | .endOfInput => "Io"
  | .badText => "InvalidUtf8Encoding"
  | .badFlag => "InvalidBoolEncoding"
  | .badOption => "InvalidTagEncoding"
  | .tooLarge => "SizeLimit"
  | .invalid => "Custom"

def CodecError.report (e : CodecError) : Json :=
  match e with
  | .unwritable f => .obj [("error", "BincodeEncode"), ("cause", f.kind)]
  | .unreadable f => .obj [("error", "BincodeDecode"), ("cause", f.kind)]
  | .unreadableJson => cause "Decode"
  | .invalidMessage _ => worded "InvalidMessage" e.message
  | .malformedAdvertisement _ => worded "MalformedAdvertisement" e.message

def SessionError.report (e : SessionError) : Json :=
  match e with
  | .malformedClientData _ => cause e.kind
  | _ => worded e.kind e.message

/-- The gateway itself words the message. -/
def LinkError.isWorded : LinkError → Bool
  | .closed reason => !reason.startsWith "conn-"
  | .sendFailed (.frameTooLong _) => true
  | .sendFailed (.tooManyFragments ..) => true
  | .connectFailed (.incompatibleVersion _) => true
  | .malformed _ => true
  | .shutdown => true
  | _ => false

def LinkError.report (e : LinkError) : Json :=
  if e.isWorded then worded e.kind e.message else cause e.kind

/-- The gateway itself words the message, and it names no address. -/
def BackendError.isWorded : BackendError → Bool
  | .unreachable detail => (detail.splitOn "127.0.0.1").length ≤ 1
  | .protocolMismatch detail => !detail.startsWith "decode failed"
  | _ => true

def BackendError.report (e : BackendError) : Json :=
  match e with
  | .identity inner => nested e.kind inner.report
  | .link inner => nested e.kind inner.report
  | _ => if e.isWorded then worded e.kind e.message else cause e.kind

def GatewayError.report (e : GatewayError) : Json :=
  match e with
  | .clientLink inner | .backendLink inner => nested e.kind inner.report
  | .codec inner => nested e.kind inner.report
  | .session inner => nested e.kind inner.report
  | .backend inner => nested e.kind inner.report
  | .config | .configFile _ => cause e.kind
  | _ => worded e.kind e.message

instance : Coe CodecError Json := ⟨CodecError.report⟩
instance : Coe SessionError Json := ⟨SessionError.report⟩
instance : Coe LinkError Json := ⟨LinkError.report⟩
instance : Coe BackendError Json := ⟨BackendError.report⟩
instance : Coe GatewayError Json := ⟨GatewayError.report⟩

/-- The report of a session that has ended. -/
def GatewayError.ending (e : GatewayError) : Json :=
  let reason := e.disconnectReason
  e.report.also [
    ("category", e.category.label), ("code", e.category.code),
    ("reason_category", reason.category.label), ("reason", reason.message),
    ("client_reachable", e.clientReachable), ("orderly", e.isOrderly)]

end EditionGateway
