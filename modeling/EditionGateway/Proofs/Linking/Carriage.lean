import EditionGateway.Linking.Login
import EditionGateway.Proofs.Link.Receiving
import EditionGateway.Proofs.Link.RoundTrip
import EditionGateway.Proofs.Shape.Packets

/-!
Packets on a stream, each in a frame under the threshold that is in force when it is sent. A stream
that carries packets is read packet by packet, however much of it has come in.
-/

namespace EditionGateway

theorem Frame.decode_congr {z z' : Compression} (h : z.decompress = z'.decompress) (t : Threshold)
    (s : Bytes) : decode z t s = decode z' t s := by
  cases z
  cases z'
  cases h
  rfl

/-- The bytes are the packets in their frames, each under the threshold beside it. -/
inductive Carries (z : Compression) : List (Threshold × Backend.Packet) → Bytes → Prop
  | nil : Carries z [] []
  | cons {t : Threshold} {p : Backend.Packet} {b f rest : Bytes} {ps : List (Threshold × Backend.Packet)}
    (encoded : Backend.Packet.shape.encode p = .ok b) (framed : Frame.encode z t b = .ok f) :
    Carries z ps rest → Carries z ((t, p) :: ps) (f ++ rest)

namespace Carries

variable {z : Compression} {t : Threshold} {p : Backend.Packet} {b f : Bytes}
  {ps qs : List (Threshold × Backend.Packet)} {bytes bytes' coming : Bytes}

theorem of_nil (h : Carries z [] bytes) : bytes = [] := by
  cases h
  rfl

theorem one (encoded : Backend.Packet.shape.encode p = .ok b) (framed : Frame.encode z t b = .ok f) :
    Carries z [(t, p)] f := by
  have h := Carries.cons encoded framed .nil
  rwa [List.append_nil] at h

theorem append (h : Carries z ps bytes) (h' : Carries z qs bytes') :
    Carries z (ps ++ qs) (bytes ++ bytes') := by
  induction h with
  | nil => exact h'
  | cons encoded framed _ ih =>
    rw [List.append_assoc]
    exact .cons encoded framed ih

/-- Packets that stand as they are can be carried if they are a little shorter than a frame may be. -/
theorem exists_of_stands (z : Compression) (ps : List (Threshold × Backend.Packet))
    (h : ∀ x ∈ ps, ¬ x.1.Compresses (Backend.Packet.shape.write x.2) ∧
      (Backend.Packet.shape.write x.2).length < maxFrameLength) : ∃ bytes, Carries z ps bytes := by
  induction ps with
  | nil => exact ⟨[], .nil⟩
  | cons x ps ih =>
    obtain ⟨⟨hstands, hshort⟩, hps⟩ := List.forall_mem_cons.mp h
    obtain ⟨rest, hrest⟩ := ih hps
    have hbody := Nat.le_trans (Frame.length_body_of_stands (z := z) hstands) hshort
    have hencode := Shape.encode_eq_ok.mpr ⟨rfl, Nat.le_of_lt hshort⟩
    exact ⟨_, .cons hencode (Frame.encode_eq_ok.mpr ⟨hbody, rfl⟩) hrest⟩

/-- A packet that is carried is not too long to be encoded. -/
theorem length_of_one (h : Carries z [(t, p)] bytes) :
    (Backend.Packet.shape.write p).length ≤ maxPacketLength := by
  cases h with
  | cons encoded =>
    obtain ⟨rfl, hlength⟩ := Shape.encode_eq_ok.mp encoded
    exact hlength

/-- Packets are carried by no other bytes. -/
theorem unique (h : Carries z ps bytes) (h' : Carries z ps bytes') : bytes = bytes' := by
  induction h generalizing bytes' with
  | nil =>
    cases h'
    rfl
  | cons encoded framed _ ih =>
    cases h' with
    | cons encoded' framed' hrest =>
      rw [encoded] at encoded'
      cases encoded'
      rw [framed] at framed'
      cases framed'
      rw [ih hrest]

/-- The first packet is read from the front of the bytes. -/
theorem decode (hz : z.Lawful) (h : Carries z ((t, p) :: ps) bytes) :
    ∃ b rest, Frame.decode z t bytes = .packet b rest ∧ Backend.Packet.shape.decode b = .ok p ∧
      Carries z ps rest := by
  cases h with
  | @cons _ _ b _ rest _ encoded framed hrest =>
    obtain ⟨rfl, hlength⟩ := Shape.encode_eq_ok.mp encoded
    have hempty := Backend.Packet.exact_shape.ne_nil p
    refine ⟨_, rest, Frame.decode_encode_of_fits hz hempty hlength framed rest, ?_, hrest⟩
    exact Backend.Packet.exact_shape.decode_encode encoded

/-- Of bytes that have come in only in part the first packet is read, or they are waited for. -/
theorem decode_part (hz : z.Lawful) (h : Carries z ((t, p) :: ps) (bytes ++ coming)) :
    Frame.decode z t bytes = .incomplete ∨
    ∃ b rest, Frame.decode z t bytes = .packet b rest ∧ Backend.Packet.shape.decode b = .ok p ∧
      Carries z ps (rest ++ coming) := by
  obtain ⟨b, rest, hdecode, hpacket, hrest⟩ := h.decode hz
  obtain hpart | ⟨left, hpart, rfl⟩ := Frame.decode_of_append_packet hdecode
  · exact .inl hpart
  · exact .inr ⟨b, left, hpart, hpacket, hrest⟩

end Carries

/-! ### How long a challenge and its answer are -/

theorem Shape.length_write_bytes (b : Bytes) :
    (Shape.u8.list.write b).length = (Binary.writeNat b.length).length + b.length := by
  have hflat : b.flatMap Shape.u8.write = b := by
    induction b with
    | nil => rfl
    | cons x b ih => exact congrArg (x :: ·) ih
  change (Binary.writeNat b.length ++ b.flatMap Shape.u8.write).length = _
  rw [hflat, List.length_append]

namespace Backend.Packet

theorem length_write_challenge (server : String) (token : Bytes) :
    (shape.write (.loginChallenge server token)).length =
      1 + ((Shape.text.write server).length + ((Binary.writeNat token.length).length + token.length)) := by
  rw [← Shape.length_write_bytes, ← List.length_append, Nat.add_comm]
  rfl

theorem length_write_response (token : Bytes) (session : String) :
    (shape.write (.loginChallengeResponse token session)).length =
      1 + ((Binary.writeNat token.length).length + token.length + (Shape.text.write session).length) := by
  rw [← Shape.length_write_bytes, ← List.length_append, Nat.add_comm]
  rfl

end Backend.Packet

/-- The threshold in force after a packet of the backend. -/
def Threshold.after (t : Threshold) : Backend.Packet → Threshold
  | .setCompression n => Login.thresholdOf n
  | _ => t

/-- Each packet with the threshold that those before it have set. -/
def underThresholds (t : Threshold) : List Backend.Packet → List (Threshold × Backend.Packet)
  | [] => []
  | p :: ps => (t, p) :: underThresholds (t.after p) ps

theorem Login.clamp_thresholdOf (n : Int32) : (thresholdOf n).clamp = thresholdOf n := by
  rw [thresholdOf]
  split
  case isTrue => rfl
  case isFalse =>
    have hlt := n.toInt_lt
    have hmin : min n.toInt.toNat 0x7fffffffffffffff = n.toInt.toNat := by omega
    exact congrArg some hmin

end EditionGateway
