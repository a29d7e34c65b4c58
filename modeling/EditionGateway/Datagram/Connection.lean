import EditionGateway.Compression.Format
import EditionGateway.Datagram.Message
import EditionGateway.Link.Address
import EditionGateway.Link.Stream

/-!
A connection over datagrams: cutting packets into fragments, and the queue of the packets that have
come. Fragments are in sequence but not reliable.
-/

namespace EditionGateway
namespace Datagram

/-- The length of a fragment without its payload. -/
def headerLength : Nat := 11

/-- What the network itself adds to each datagram. -/
def networkOverhead : Nat := 28

def inboxCapacity : Nat := 1024

/-- `compression` is how bodies are made shorter, from the threshold on. -/
structure Connection where
  id : ConnectionId
  address : Address
  mtu : UInt16
  nextSplit : UInt16
  nextSeq : UInt32 := 0
  compression : Compression := .bare
  threshold : Threshold := none
  inbox : List (Except LinkError Bytes) := []
  closed : Bool := false

/-- A mark in front of a body that stands as it is. -/
def storedMark : UInt8 := 0x00

/-- A mark in front of a compressed body. -/
def deflatedMark : UInt8 := 0x01

/-- Another mark in front of a body that stands as it is; it is understood but not written. -/
def plainMark : UInt8 := 0xff

/-- What is sent for a packet: once there is a threshold, a body with a mark. -/
def encodeBody (z : Compression) (threshold : Threshold) (p : Bytes) : Bytes :=
  match threshold with
  | none => p
  | some t => if t ≤ p.length then deflatedMark :: z.compress p else storedMark :: p

def decodeBody (z : Compression) (threshold : Threshold) (b : Bytes) : Except LinkError Bytes :=
  match threshold, b with
  | none, _ => .ok b
  | some _, [] => .error (.malformed .emptyPacket)
  | some _, mark :: p =>
    if mark = storedMark ∨ mark = plainMark then .ok p
    else if mark = deflatedMark then
      match z.decompress maxInflatedLength p with
      | .ok p => .ok p
      | .error e => .error (.ofInflate maxInflatedLength e)
    else .error (.malformed (.unknownMarker mark))

/-- Byte strings of `n` bytes, the last one shorter. -/
def chunks (n : Nat) (b : Bytes) : List Bytes :=
  if _h : b = [] ∨ n = 0 then [] else b.take n :: chunks n (b.drop n)
termination_by b.length
decreasing_by
  have : b.length ≠ 0 := fun h' => _h (Or.inl (List.length_eq_zero_iff.mp h'))
  have : n ≠ 0 := fun h' => _h (Or.inr h')
  simp only [List.length_drop]
  omega

namespace Connection

/-- The longest payload of a fragment. -/
def maxPayload (c : Connection) : Nat := max (c.mtu.toNat - (headerLength + networkOverhead)) 1

def setThreshold (c : Connection) (t : Threshold) : Connection := { c with threshold := t.clamp }

/-- Cuts a packet into fragments. A sequence number is used up in any case, a split number only if
there is more than one fragment. -/
def send (c : Connection) (p : Bytes) : Except LinkError (List Fragment) × Connection :=
  if c.closed then (.error (.closed c.id.closedReason), c)
  else
    let body := encodeBody c.compression c.threshold p
    let seq := c.nextSeq
    let c := { c with nextSeq := seq + 1 }
    if body.length ≤ c.maxPayload then (.ok [⟨seq, 0, 0, 1, body⟩], c)
    else
      let count := (body.length + c.maxPayload - 1) / c.maxPayload
      if maxFragments < count then
        (.error (.sendFailed (.tooManyFragments body.length count)), c)
      else
        let fragments := (chunks c.maxPayload body).zipIdx.map fun (payload, i) =>
          ⟨seq, c.nextSplit, UInt16.ofNat i, UInt16.ofNat count, payload⟩
        (.ok fragments, { c with nextSplit := c.nextSplit + 1 })

/-- Puts a packet or an error into the inbox; what finds no room is lost. -/
def deliver (c : Connection) (got : Except LinkError Bytes) : Connection :=
  if c.inbox.length < inboxCapacity then { c with inbox := c.inbox ++ [got] } else c

/-- The next packet. When there is none, the connection has ended if it is no longer fed. -/
def receive (c : Connection) (fed : Bool) : Option Received × Connection :=
  match c.inbox with
  | .ok b :: r =>
    let got := match decodeBody c.compression c.threshold b with
      | .ok p => Received.packet p
      | .error e => .failed e
    (some got, { c with inbox := r })
  | .error e :: r => (some (.failed e), { c with inbox := r })
  | [] => (if fed then none else some .ended, c)

end Connection
end Datagram
end EditionGateway
