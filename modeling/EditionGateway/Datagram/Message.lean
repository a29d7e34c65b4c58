import EditionGateway.Link.Error

/-!
The forms of a datagram. The first byte says which one it is; numbers have their highest byte first.
-/

namespace EditionGateway
namespace Datagram

/-- The mark in front of each form of datagram. -/
def pingMark : UInt8 := 0x01
def pongMark : UInt8 := 0x1c
def openMark : UInt8 := 0x05
def openedMark : UInt8 := 0x06
def incompatibleMark : UInt8 := 0x19
def fragmentMark : UInt8 := 0x84
def disconnectMark : UInt8 := 0x15

/-- The longest datagram that the network carries. -/
def maxLength : Nat := 65507

/-- A packet has at most this many parts. -/
def maxFragments : Nat := 512

def ping (time guid : UInt64) : Bytes :=
  pingMark :: Bytes.be 8 time.toNat ++ Bytes.be 8 guid.toNat

/-- The answer to a ping. Of a text that is too long for its length field the front is sent. -/
def pong (time guid : UInt64) (text : String) : Bytes :=
  let b := (Bytes.ofText text).take 0xffff
  pongMark :: Bytes.be 8 time.toNat ++ Bytes.be 8 guid.toNat ++ Bytes.be 2 b.length ++ b

def openRequest (mtu : UInt16) : Bytes := [openMark, transportVersion] ++ Bytes.be 2 mtu.toNat

def opened (guid : UInt64) (mtu : UInt16) : Bytes :=
  openedMark :: Bytes.be 8 guid.toNat ++ Bytes.be 2 mtu.toNat

def incompatible (guid : UInt64) : Bytes :=
  [incompatibleMark, transportVersion] ++ Bytes.be 8 guid.toNat

def disconnect : Bytes := [disconnectMark]

/-- A part of a packet: part `index` of `count`, which are joined by the number `split`. -/
structure Fragment where
  seq : UInt32
  split : UInt16
  index : UInt16
  count : UInt16
  payload : Bytes
deriving DecidableEq, Repr

def Fragment.encode (f : Fragment) : Bytes :=
  fragmentMark :: Bytes.be 4 f.seq.toNat ++ Bytes.be 2 f.split.toNat ++ Bytes.be 2 f.index.toNat
    ++ Bytes.be 2 f.count.toNat ++ f.payload

/-- The bytes of a datagram that have not been read, and how many have. -/
structure Cursor where
  rest : Bytes
  offset : Nat := 0

abbrev Scan := StateT Cursor (Except LinkError)

namespace Scan

def take (n : Nat) : Scan Bytes := fun c =>
  let b := c.rest.take n
  if b.length = n then .ok (b, ⟨c.rest.drop n, c.offset + n⟩)
  else .error (.malformed (.shortDatagram n c.offset))

/-- A number of `n` bytes. -/
def number (n : Nat) : Scan Nat := do return Bytes.beValue (← take n)

def rest : Scan Bytes := fun c => .ok (c.rest, ⟨[], c.offset + c.rest.length⟩)

/-- A fragment without its mark. -/
def fragment : Scan Fragment := do
  let seq ← number 4
  let split ← number 2
  let index ← number 2
  let count ← number 2
  let payload ← rest
  return {
    seq := UInt32.ofNat seq
    split := UInt16.ofNat split
    index := UInt16.ofNat index
    count := UInt16.ofNat count
    payload }

/-- The value read from the front of a byte string. -/
def eval {α : Type} (s : Scan α) (b : Bytes) : Except LinkError α := StateT.run' s ⟨b, 0⟩

end Scan
end Datagram
end EditionGateway
