import EditionGateway.Compression.Format
import EditionGateway.Link.Varint

/-!
Frames of a byte stream: a length and that many bytes. Once a compression threshold is set, a frame
holds a length of its own and a body: the length of the compressed body, or 0 before a body that
stands as it is.
-/

namespace EditionGateway

/-- Bodies of at least this length are compressed; `none` if none are. -/
abbrev Threshold := Option Nat

/-- Thresholds above the largest signed number of 64 bits count as that number. -/
def Threshold.clamp (t : Threshold) : Threshold := t.map (min · 0x7fffffffffffffff)

namespace Frame

/-- What is sent for a packet inside a frame. Only the lowest 32 bits of its length are written. -/
def body (z : Compression) (threshold : Threshold) (packet : Bytes) : Bytes :=
  match threshold with
  | none => packet
  | some t =>
    if t ≤ packet.length then Varint.write (packet.length % UInt32.size) ++ z.compress packet
    else Varint.write 0 ++ packet

def encode (z : Compression) (threshold : Threshold) (packet : Bytes) : Except LinkError Bytes :=
  let b := body z threshold packet
  if b.length ≤ maxFrameLength then .ok (Varint.write b.length ++ b)
  else .error (.sendFailed (.frameTooLong b.length))

/-- The packet inside a frame. -/
def unpack (z : Compression) (threshold : Threshold) (frame : Bytes) : Except LinkError Bytes :=
  match threshold with
  | none => .ok frame
  | some _ => do
    match ← Varint.peek frame with
    | none => .error (.malformed .noBodyLength)
    | some (declared, width) =>
      let b := frame.drop width
      if declared = 0 then .ok b
      else if maxInflatedLength < declared then .error (.malformed (.bodyTooLong declared))
      else
        match z.decompress declared b with
        | .error e => .error (.ofInflate declared e)
        | .ok packet =>
          if packet.length = declared then .ok packet
          else .error (.malformed (.wrongBodyLength declared packet.length))

/-- What the front of a byte string holds. A frame that cannot be unpacked is used up. -/
inductive Decoded
  | incomplete
  | packet (p rest : Bytes)
  | failed (e : LinkError) (rest : Bytes)
deriving Repr

def decode (z : Compression) (threshold : Threshold) (s : Bytes) : Decoded :=
  match Varint.peek s with
  | .error e => .failed e s
  | .ok none => .incomplete
  | .ok (some (length, width)) =>
    if maxFrameLength < length then .failed (.malformed (.frameTooLong length)) s
    else
      let frame := (s.drop width).take length
      if frame.length < length then .incomplete
      else
        match unpack z threshold frame with
        | .ok p => .packet p (s.drop (width + length))
        | .error e => .failed e (s.drop (width + length))

end Frame

/-- Cuts a byte stream into packets as the bytes come in. -/
structure FrameReader where
  buffer : Bytes := []
  atEnd : Bool := false
  mayDecode : Bool := false
  failed : Bool := false
deriving Repr

/-- What follows the bytes that have come in. -/
inductive Ahead
  | more
  | finished
  | reset
deriving DecidableEq, Repr

/-- The bytes that have come in but have not been looked at. -/
structure Intake where
  bytes : Bytes := []
  ahead : Ahead := .more
deriving Repr

/-- What receiving gives: a packet, the end, or an error. -/
inductive Received
  | packet (p : Bytes)
  | ended
  | failed (e : LinkError)
deriving Repr

namespace FrameReader

def giveUp (r : FrameReader) (e : LinkError) (buffer : Bytes) : Received × FrameReader :=
  (.failed e, { r with buffer, failed := true })

/-- Decodes what is left after the end of the stream: packets one by one, then the end, unless bytes
remain that are no frame. -/
def drain (z : Compression) (threshold : Threshold) (r : FrameReader) : Received × FrameReader :=
  match Frame.decode z threshold r.buffer with
  | .packet p rest => (.packet p, { r with buffer := rest })
  | .failed e rest => r.giveUp e rest
  | .incomplete =>
    if r.buffer.isEmpty then (.ended, { r with mayDecode := false })
    else r.giveUp (.receiveFailed .endInFrame) r.buffer

/-- Goes on when nothing has come in. -/
def starve (z : Compression) (threshold : Threshold) (r : FrameReader) (ahead : Ahead) :
    Option Received × FrameReader × Intake :=
  match ahead with
  | .more => (none, r, { ahead })
  | .finished =>
    if r.atEnd then (some .ended, r, { ahead })
    else
      let (got, r) := drain z threshold { r with atEnd := true, mayDecode := true }
      (some got, r, { ahead })
  | .reset =>
    let (got, r) := r.giveUp (.receiveFailed .reset) r.buffer
    (some got, r, { ahead := .finished })

/-- Decodes one packet from the buffer, if a frame is complete. -/
def tryBuffer (z : Compression) (threshold : Threshold) (r : FrameReader) :
    Option Received × FrameReader :=
  match Frame.decode z threshold r.buffer with
  | .packet p rest => (some (.packet p), { r with buffer := rest })
  | .failed e rest =>
    let (got, r) := r.giveUp e rest
    (some got, r)
  | .incomplete => (none, { r with mayDecode := false })

/-- Takes in what has come and goes on. -/
def read (z : Compression) (threshold : Threshold) (r : FrameReader) (i : Intake) :
    Option Received × FrameReader × Intake :=
  if i.bytes.isEmpty then starve z threshold r i.ahead
  else
    let r := { r with buffer := r.buffer ++ i.bytes, atEnd := false, mayDecode := true }
    match tryBuffer z threshold r with
    | (some got, r) => (some got, r, { i with bytes := [] })
    | (none, r) => starve z threshold r i.ahead

/-- Receives the next packet; nothing if it has not come in yet. After an error the stream seems to
end once, and is looked at again when more comes in. -/
def receive (z : Compression) (threshold : Threshold) (r : FrameReader) (i : Intake) :
    Option Received × FrameReader × Intake :=
  if r.failed then (some .ended, { r with failed := false, mayDecode := false }, i)
  else if r.mayDecode ∧ r.atEnd then
    let (got, r) := drain z threshold r
    (some got, r, i)
  else if r.mayDecode then
    match tryBuffer z threshold r with
    | (some got, r) => (some got, r, i)
    | (none, r) => read z threshold r i
  else read z threshold r i

end FrameReader
end EditionGateway
