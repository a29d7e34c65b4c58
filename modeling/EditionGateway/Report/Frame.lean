import EditionGateway.Bytes.Hex
import EditionGateway.Datagram.Connection
import EditionGateway.Link.Frame
import EditionGateway.Report.Error

/-!
Bytes, frames and fragments as they are reported in JSON. Long byte strings are reported by their
length and a hash.
-/

namespace EditionGateway

/-- The hash by which long byte strings are told apart: each byte is mixed in by an exclusive or and
a multiplication. -/
def Bytes.hash (b : Bytes) : UInt64 :=
  b.foldl (fun h x => (h ^^^ x.toUInt64) * 0x100000001b3) 0xcbf29ce484222325

def Bytes.report (b : Bytes) : Json :=
  if b.length ≤ 512 then b.toHex
  else .obj [("len", b.length), ("fnv1a64", (Bytes.be 8 b.hash.toNat).toHex)]

def Compression.reportBody (z : Compression) (limit : Nat) (b : Bytes) : Json :=
  match z.decompress limit b with
  | .ok body => body.report
  | .error e => (LinkError.ofInflate limit e).report

def Received.report : Received → Json
  | .packet p => .obj [("data", p.report)]
  | .ended => "closed"
  | .failed e => e.report

/-- A length at the front of a byte string, the bytes that it takes, and what follows. -/
def Varint.split (b : Bytes) : Nat × Bytes × Bytes :=
  match Varint.peek b with
  | .ok (some (n, width)) => (n, b.take width, b.drop width)
  | _ => (0, [], b)

/-- The frame that was sent for a packet of some length. -/
def Frame.report (threshold : Threshold) (length : Nat) (b : Bytes) : Json :=
  let (_, pre, body) := Varint.split b
  let (n, _, inner) := Varint.split body
  match threshold with
  | none => .obj [("prefix", pre.toHex), ("body", body.report)]
  | some t =>
    if t ≤ length then
      .obj [("data_length", n),
        ("inflated", Compression.wrapped.reportBody maxInflatedLength inner)]
    else .obj [("prefix", pre.toHex), ("data_length", n), ("body", inner.report)]

namespace Datagram

def Fragment.report (f : Fragment) : Json := .obj [
  ("seq", f.seq), ("split", f.split), ("index", f.index), ("count", f.count),
  ("size", f.encode.length), ("payload", f.payload.report)]

/-- The fragments that were sent for a packet of some length. -/
def reportSent (threshold : Threshold) (length : Nat) (fs : List Fragment) : Json :=
  if threshold.any (· ≤ length) then
    let body := fs.flatMap (·.payload)
    .obj [("seq", fs.head?.map (·.seq)), ("marker", body.head?),
      ("inflated", Compression.bare.reportBody maxInflatedLength (body.drop 1))]
  else .array (fs.map Fragment.report)

end Datagram
end EditionGateway
