import EditionGateway.Compression.Inflate

/-!
What can go wrong on a link, and how it is said.
-/

namespace EditionGateway

/-- What a peer sent that is not in order. -/
inductive Malformed
  | lengthTooWide
  | frameTooLong (length : Nat)
  | noBodyLength
  | bodyTooLong (declared : Nat)
  | wrongBodyLength (declared actual : Nat)
  | inflatedTooLong (limit : Nat)
  | shortDatagram (wanted offset : Nat)
  | badFragment (index count : Nat)
  | tooManySplits
  | changedCount (split : Nat)
  | unknownMarker (marker : UInt8)
  | emptyPacket
  | badText
  | other (text : String)
deriving DecidableEq, Repr

/-- Why something could not be sent, received, accepted or opened. -/
inductive Failure
  | frameTooLong (length : Nat)
  | tooManyFragments (length count : Nat)
  | incompatibleVersion (theirs : UInt8)
  | datagramTooLong
  | refused
  | endInFrame
  | reset
  | system (text : String)
deriving DecidableEq, Repr

inductive LinkError
  | closed (reason : String)
  | sendFailed (f : Failure)
  | receiveFailed (f : Failure)
  | acceptFailed (f : Failure)
  | connectFailed (f : Failure)
  | timedOut (what : String)
  | malformed (m : Malformed)
  | compression (text : String)
  | shutdown
deriving DecidableEq, Repr

/-- The longest frame of a stream. -/
def maxFrameLength : Nat := 2 * 1024 * 1024

/-- The longest body that is inflated. -/
def maxInflatedLength : Nat := 2 * 1024 * 1024

/-- The version of the framing of datagrams. -/
def transportVersion : UInt8 := 11

def hexByteText (b : UInt8) : String :=
  String.ofList ['0', 'x', Nat.digitChar (b.toNat / 16), Nat.digitChar (b.toNat % 16)]

def Malformed.message : Malformed → String
  | .lengthTooWide => "VarInt too long"
  | .frameTooLong n => "frame of " ++ toString n ++ " bytes exceeds " ++ toString maxFrameLength
  | .noBodyLength => "compressed frame missing data length"
  | .bodyTooLong n => "declared size " ++ toString n ++ " exceeds " ++ toString maxInflatedLength
  | .wrongBodyLength n m => "declared size " ++ toString n ++ ", inflated " ++ toString m
  | .inflatedTooLong n => "inflated body exceeds " ++ toString n ++ " bytes"
  | .shortDatagram n p =>
    "truncated datagram: wanted " ++ toString n ++ " bytes at offset " ++ toString p
  | .badFragment i n => "bad fragment " ++ toString i ++ "/" ++ toString n
  | .tooManySplits => "too many pending split packets"
  | .changedCount s => "split " ++ toString s ++ " changed fragment count"
  | .unknownMarker b => "unknown compression marker " ++ hexByteText b
  | .emptyPacket => "empty packet"
  | .badText => "text is not UTF-8"
  | .other text => text

def Failure.message : Failure → String
  | .frameTooLong n => "frame of " ++ toString n ++ " bytes exceeds " ++ toString maxFrameLength
  | .tooManyFragments n count =>
    "packet of " ++ toString n ++ " bytes needs " ++ toString count ++ " fragments"
  | .incompatibleVersion v =>
    "server speaks transport version " ++ toString v.toNat ++ ", we speak "
      ++ toString transportVersion.toNat
  | .datagramTooLong => "message too long"
  | .refused => "connection refused"
  | .endInFrame => "bytes remaining on stream"
  | .reset => "connection reset by peer"
  | .system text => text

namespace LinkError

def message : LinkError → String
  | .closed reason => "connection closed: " ++ reason
  | .sendFailed f => "send failed: " ++ f.message
  | .receiveFailed f => "receive failed: " ++ f.message
  | .acceptFailed f => "accept failed: " ++ f.message
  | .connectFailed f => "connect failed: " ++ f.message
  | .timedOut what => "timed out: " ++ what
  | .malformed m => "malformed frame: " ++ m.message
  | .compression text => "compression failed: " ++ text
  | .shutdown => "transport shut down"

/-- The name of the cause, without its circumstances. -/
def kind : LinkError → String
  | .closed _ => "ConnectionClosed"
  | .sendFailed _ => "SendFailed"
  | .receiveFailed _ => "ReceiveFailed"
  | .acceptFailed _ => "AcceptFailed"
  | .connectFailed _ => "ConnectFailed"
  | .timedOut _ => "Timeout"
  | .malformed _ => "MalformedFrame"
  | .compression _ => "Compression"
  | .shutdown => "Shutdown"

/-- The peer is gone, as opposed to having sent something out of order. -/
def isDisconnect : LinkError → Bool
  | .closed _ => true
  | .shutdown => true
  | .timedOut _ => true
  | _ => false

/-- The error of a body of at most `limit` bytes that cannot be inflated. -/
def ofInflate (limit : Nat) : InflateFault → LinkError
  | .tooLong => .malformed (.inflatedTooLong limit)
  | .truncated => .compression "unexpected end of the compressed stream"
  | .corrupt => .compression "corrupt compressed stream"

end LinkError
end EditionGateway
