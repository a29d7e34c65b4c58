import EditionGateway.Proofs.Linking.Carriage

/-!
The limits for packets, for frames and for what is inflated are the same number. A frame holds more than
its packet once there is a threshold, so a packet near the limit may be refused (`accepted_iff_fits`). What
is not refused is read again.
-/

namespace EditionGateway

namespace Deflate

/-- Each block of at most 65535 bytes has five bytes of its own. -/
theorem length_stored_le (b : Bytes) : (stored b).length ≤ b.length + 5 * (b.length / 0xffff + 1) := by
  induction hlen : b.length using Nat.strongRecOn generalizing b with
  | ind n ih =>
    rw [stored]
    split
    case isTrue hmore =>
      -- a full block, and the blocks of what is left
      have hfull : min b.length 0xffff = 0xffff := by omega
      have hrest := ih _ (by rw [List.length_drop]; omega) (b.drop (min b.length 0xffff)) rfl
      rw [List.length_drop, hfull] at hrest
      simp only [List.length_append, List.length_take, List.length_cons, Bytes.length_le, hfull]
      omega
    case isFalse =>
      simp only [List.length_append, List.length_cons, Bytes.length_le]
      omega

end Deflate

theorem Compression.length_wrapped_le (b : Bytes) :
    (wrapped.compress b).length ≤ b.length + 5 * (b.length / 0xffff + 1) + 6 := by
  have hdeflate := Deflate.length_deflate_le b
  have hstored := Deflate.length_stored_le b
  simp only [wrapped, List.length_cons, List.length_append, Bytes.length_be]
  omega

namespace Frame

variable {z : Compression} {t : Threshold} {p : Bytes}

/-- What a frame holds for a packet is not too long: the packet, or behind a length what it is compressed to,
or behind a mark the packet. -/
def Fits (z : Compression) (t : Threshold) (p : Bytes) : Prop :=
  if t.Compresses p then (Varint.write p.length).length + (z.compress p).length ≤ maxFrameLength
  else p.length + (if t = none then 0 else 1) ≤ maxFrameLength

theorem fits_iff (h : p.length ≤ maxPacketLength) : (body z t p).length ≤ maxFrameLength ↔ Fits z t p := by
  have hlow : p.length % UInt32.size = p.length := Nat.mod_eq_of_lt (Nat.lt_of_le_of_lt h (by decide))
  rw [Fits]
  by_cases hc : t.Compresses p
  · rw [if_pos hc, body_of_compresses hc, hlow, List.length_append]
  · rw [if_neg hc]
    cases t with
    | none => exact Iff.rfl
    | some k =>
      have hk : ¬ k ≤ p.length := fun hle => hc ⟨k, rfl, hle⟩
      rw [body, if_neg hk, Varint.write_of_small (by decide), List.length_append, Nat.add_comm]
      exact Iff.rfl

/-- Packets fit under any threshold that are 176 bytes shorter than the limit. -/
theorem fits_of_short (t : Threshold) (h : p.length + 176 ≤ maxPacketLength) : Fits .wrapped t p := by
  have hpacket : maxPacketLength = 2097152 := rfl
  have hframe : maxFrameLength = 2097152 := rfl
  have hwrapped := Compression.length_wrapped_le p
  have hmark : (Varint.write p.length).length ≤ 4 :=
    Varint.length_write_le (k := 3) (by show p.length < 268435456; omega)
  rw [Fits]
  split
  -- at most 32 blocks, and at most ten bytes around them
  · omega
  · split <;> omega

/-- What becomes of a packet: it is accepted if and only if it fits, and then it is read from its frame. -/
structure Handled (z : Compression) (t : Threshold) (p : Bytes) : Prop where
  accepted_iff : (∃ f, encode z t p = .ok f) ↔ Fits z t p
  refused : ∀ e, encode z t p = .error e → e = .sendFailed (.frameTooLong (body z t p).length)
  read : ∀ f, encode z t p = .ok f → ∀ rest, decode z t (f ++ rest) = .packet p rest

end Frame

/-- A packet of an exact layout is never empty, nor longer than what is inflated. -/
theorem Shape.Exact.handled {α : Type} {s : Shape α} (hs : s.Exact) {z : Compression} (hz : z.Lawful)
    (t : Threshold) {a : α} {b : Bytes} (h : s.encode a = .ok b) : Frame.Handled z t b := by
  obtain ⟨rfl, hlength⟩ := encode_eq_ok.mp h
  refine ⟨?_, fun e he => ?_, fun f hf => ?_⟩
  · rw [← Frame.fits_iff hlength]
    constructor
    · rintro ⟨f, hf⟩
      exact (Frame.encode_eq_ok.mp hf).1
    · intro hle
      exact ⟨_, Frame.encode_eq_ok.mpr ⟨hle, rfl⟩⟩
  · rw [Frame.encode] at he
    split at he
    · cases he
    · exact (Except.error.inj he).symm
  · exact Frame.decode_encode_of_fits hz (hs.ne_nil a) hlength hf

/-- Of the packets that can be encoded, the frames accept those that fit, and give them back. Without a
threshold all of them fit. -/
theorem accepted_iff_fits {z : Compression} (hz : z.Lawful) (t : Threshold) :
    (∀ p b, Client.Packet.shape.encode p = .ok b → Frame.Handled z t b) ∧
      (∀ p b, Backend.Packet.shape.encode p = .ok b → Frame.Handled z t b) ∧
      ∀ b, b.length ≤ maxPacketLength → Frame.Fits z none b := by
  refine ⟨fun p b => Client.Packet.exact_shape.handled hz t, fun p b => Backend.Packet.exact_shape.handled hz t,
    fun b hb => ?_⟩
  have hnone : ¬ Threshold.Compresses none b := by
    rintro ⟨k, hk, -⟩
    cases hk
  rw [Frame.Fits, if_neg hnone]
  exact hb

/-- Whatever the threshold, a short packet is read from its frame. -/
theorem accepted_iff_fits_short :
    let p : Backend.Packet := .keepAlive 7
    ∃ b, Backend.Packet.shape.encode p = .ok b ∧ ∀ t, ∃ f, Frame.encode .wrapped t b = .ok f ∧
      ∀ rest, Frame.decode .wrapped t (f ++ rest) = .packet b rest := by
  intro p
  refine ⟨Backend.Packet.shape.write p, rfl, fun t => ?_⟩
  have hhandled := (accepted_iff_fits Compression.wrapped_lawful t).2.1 p _ rfl
  obtain ⟨f, hf⟩ := hhandled.accepted_iff.mpr (Frame.fits_of_short t (by decide))
  exact ⟨f, hf, hhandled.read f hf⟩

/-- A packet as long as packets may be finds no room behind the mark. -/
theorem longest_packet_refused :
    let p : Backend.Packet := .loginChallengeResponse (List.replicate 2097145 0) ""
    ∃ b, Backend.Packet.shape.encode p = .ok b ∧ b.length = maxPacketLength ∧
      ∀ z, Frame.encode z (some 2097153) b = .error (.sendFailed (.frameTooLong 2097153)) := by
  intro p
  have hlength : (Backend.Packet.shape.write p).length = maxPacketLength := by
    rw [Backend.Packet.length_write_response, List.length_replicate]
    rfl
  refine ⟨_, Shape.encode_eq_ok.mpr ⟨rfl, Nat.le_of_eq hlength⟩, hlength, fun z => ?_⟩
  have hbody : (Frame.body z (some 2097153) (Backend.Packet.shape.write p)).length = 2097153 := by
    have hstands : ¬ 2097153 ≤ (Backend.Packet.shape.write p).length := by
      rw [hlength]
      decide
    rw [Frame.body, if_neg hstands, List.length_append, hlength, Varint.write_of_small (by decide)]
    rfl
  rw [Frame.encode]
  rw [hbody]
  rfl

end EditionGateway
