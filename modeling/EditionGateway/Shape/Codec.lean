import EditionGateway.Discovery.Advertisement
import EditionGateway.Json.Parser
import EditionGateway.Json.Printer
import EditionGateway.Shape.Variant

/-!
Encoding and decoding whole packets.
-/

namespace EditionGateway

open Binary (Fault)

/-- Bytes and packets disagree. -/
inductive CodecError
  | unwritable (f : Fault)
  | unreadable (f : Fault)
  | unreadableJson
  | invalidMessage (text : String)
  | malformedAdvertisement (m : Advertisement.Malformed)
deriving DecidableEq, Repr

namespace CodecError

def message : CodecError → String
  | .unwritable f => "encode failed: " ++ f.message
  | .unreadable f => "decode failed: " ++ f.message
  | .unreadableJson => "decode failed: not the expected JSON"
  | .invalidMessage text => "invalid message: " ++ text
  | .malformedAdvertisement m => "malformed advertisement: " ++ m.message

def isDecode : CodecError → Bool
  | .unwritable _ => false
  | _ => true

end CodecError

/-- Packets with a longer binary form are not sent. -/
def maxPacketLength : Nat := 2 * 1024 * 1024

namespace Shape

variable {α : Type}

def encode (s : Shape α) (a : α) : Except CodecError Bytes :=
  let b := s.write a
  if b.length ≤ maxPacketLength then .ok b else .error (.unwritable .tooLarge)

/-- Reads a binary form that is followed by nothing. -/
def decode (s : Shape α) (b : Bytes) : Except CodecError α :=
  match s.read.complete b with
  | .ok a => .ok a
  | .error e => .error (.unreadable e)

def encodeJson (s : Shape α) (a : α) : Bytes := (s.toJson a).render

def decodeJson (s : Shape α) (b : Bytes) : Except CodecError α :=
  match (Json.parse b).bind (s.ofJson Json.maxDepth) with
  | some a => .ok a
  | none => .error .unreadableJson

end Shape
end EditionGateway
