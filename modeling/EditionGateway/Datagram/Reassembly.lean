import EditionGateway.Datagram.Message
import EditionGateway.Table

/-!
Putting packets together again from their fragments. Lost fragments are never sent again, so packets
that are left behind are dropped at some time.
-/

namespace EditionGateway
namespace Datagram

/-- A packet of which some parts have come, with the number of those that have. -/
structure Split where
  seq : UInt32
  parts : List (Option Bytes)
  received : Nat
deriving Repr

structure Reassembly where
  splits : Table UInt16 Split := []
  lastDelivered : Option UInt32 := none
deriving Repr

def maxPendingSplits : Nat := 64

/-- Incomplete packets stay for this many sequence numbers. -/
def splitWindow : Nat := 256

namespace Split

def empty (seq : UInt32) (count : Nat) : Split := ⟨seq, List.replicate count none, 0⟩

/-- Puts a part in its place, unless the place is filled. -/
def fill (s : Split) (index : Nat) (payload : Bytes) : Split :=
  match s.parts[index]? with
  | some none =>
    { s with parts := s.parts.set index (some payload), received := s.received + 1 }
  | _ => s

def body (s : Split) : Bytes := s.parts.flatMap (·.getD [])

end Split

namespace Reassembly

/-- An incomplete packet is stale once a later packet has been delivered, or when it is too far
behind the packet `seq`. -/
def isStale (r : Reassembly) (seq : UInt32) (s : Split) : Bool :=
  (match r.lastDelivered with
    | some last => s.seq ≤ last
    | none => false)
  || splitWindow < seq.toNat - s.seq.toNat

def evictStale (r : Reassembly) (seq : UInt32) : Reassembly :=
  { r with splits := r.splits.filter fun e => ¬ r.isStale seq e.2 }

/-- Fills the part of an incomplete packet; the whole packet, if this was the last missing part. -/
def join (r : Reassembly) (f : Fragment) (s : Split) :
    Except Malformed (Option (UInt32 × Bytes)) × Reassembly :=
  if s.parts.length ≠ f.count.toNat then (.error (.changedCount f.split.toNat), r)
  else
    let s := s.fill f.index.toNat f.payload
    if s.received < f.count.toNat then (.ok none, { r with splits := r.splits.insert f.split s })
    else (.ok (some (s.seq, s.body)), { r with splits := r.splits.erase f.split })

/-- Takes a fragment: nothing, or the packet that it completes with its sequence number. -/
def accept (r : Reassembly) (f : Fragment) :
    Except Malformed (Option (UInt32 × Bytes)) × Reassembly :=
  if f.count = 0 ∨ f.count ≤ f.index ∨ maxFragments < f.count.toNat then
    (.error (.badFragment f.index.toNat f.count.toNat), r)
  else if f.count = 1 then (.ok (some (f.seq, f.payload)), r)
  else
    match r.splits.get? f.split with
    | some s => r.join f s
    | none =>
      let r := r.evictStale f.seq
      if maxPendingSplits ≤ r.splits.length then (.error .tooManySplits, r)
      else r.join f (.empty f.seq f.count.toNat)

/-- A packet is delivered only if it is later than the last one. -/
def deliver (r : Reassembly) (seq : UInt32) : Bool × Reassembly :=
  match r.lastDelivered with
  | some last => if seq ≤ last then (false, r) else (true, { r with lastDelivered := some seq })
  | none => (true, { r with lastDelivered := some seq })

end Reassembly
end Datagram
end EditionGateway
