import EditionGateway.Proofs.Compression.Lawful
import EditionGateway.Proofs.Link.Framing

/-!
Frames that are written and read again under the same threshold. What comes back is the packet, unless
it was compressed and is either empty, as its length then looks like the mark of a body that stands as
it is, or longer than the decoder inflates.
-/

namespace EditionGateway

/-- The packet is compressed. -/
def Threshold.Compresses (t : Threshold) (p : Bytes) : Prop := ∃ k, t = some k ∧ k ≤ p.length

instance (t : Threshold) (p : Bytes) : Decidable (t.Compresses p) :=
  match t with
  | none => isFalse nofun
  | some k => decidable_of_iff (k ≤ p.length)
    ⟨fun h => ⟨k, rfl, h⟩, fun ⟨_, hk, h⟩ => Nat.le_trans (Nat.le_of_eq (Option.some.inj hk)) h⟩

namespace Frame

variable {z : Compression} {t : Threshold} {p f : Bytes}

theorem encode_eq_ok :
    encode z t p = .ok f ↔ (body z t p).length ≤ maxFrameLength ∧
      f = Varint.write (body z t p).length ++ body z t p := by
  rw [encode]
  split
  case isTrue h =>
    constructor
    · rintro ⟨⟩
      exact ⟨h, rfl⟩
    · rintro ⟨-, rfl⟩
      rfl
  case isFalse h =>
    constructor
    · nofun
    · rintro ⟨h', -⟩
      exact absurd h' h

/-- The front of a frame tells where it ends. -/
theorem decode_frame {b : Bytes} (h : b.length ≤ maxFrameLength) (rest : Bytes) :
    decode z t (Varint.write b.length ++ b ++ rest) =
      match unpack z t b with
      | .ok p => .packet p rest
      | .error e => .failed e rest := by
  have hwide : b.length < Nat.pow 128 Varint.maxWidth := Nat.lt_of_le_of_lt h (by decide)
  have hlow : b.length % UInt32.size = b.length := Nat.mod_eq_of_lt (Nat.lt_of_le_of_lt h (by decide))
  have hpeek := Varint.peek_write hwide (b ++ rest)
  rw [hlow] at hpeek
  rw [List.append_assoc, decode, hpeek]
  dsimp only
  rewrite [List.drop_left, List.take_left, if_neg (Nat.not_lt.mpr h), if_neg (Nat.lt_irrefl _),
    ← List.append_assoc, ← List.length_append, List.drop_left]
  cases unpack z t b <;> rfl

theorem body_of_compresses (h : t.Compresses p) :
    body z t p = Varint.write (p.length % UInt32.size) ++ z.compress p := by
  obtain ⟨k, rfl, hk⟩ := h
  rw [body, if_pos hk]

/-- At most a mark is put before a packet that stands as it is. -/
theorem length_body_of_stands (h : ¬ t.Compresses p) : (body z t p).length ≤ p.length + 1 := by
  cases t with
  | none => exact Nat.le_succ _
  | some k =>
    have hk : ¬ k ≤ p.length := fun hle => h ⟨k, rfl, hle⟩
    rw [body, if_neg hk, Varint.write_of_small (by decide)]
    exact Nat.le_refl _

theorem unpack_of_stands (h : ¬ t.Compresses p) : unpack z t (body z t p) = .ok p := by
  cases t with
  | none => rfl
  | some k =>
    have hk : ¬ k ≤ p.length := fun hle => h ⟨k, rfl, hle⟩
    have hpeek := Varint.peek_write (n := 0) (by decide) p
    rw [body, if_neg hk, unpack]
    rw [hpeek]
    change Except.ok ((Varint.write 0 ++ p).drop (Varint.write 0).length) = .ok p
    rw [List.drop_left]

/-- What is read of a packet that was compressed. -/
theorem unpack_of_compresses (h : t.Compresses p) :
    unpack z t (body z t p) =
      let declared := p.length % UInt32.size
      if declared = 0 then .ok (z.compress p)
      else if maxInflatedLength < declared then .error (.malformed (.bodyTooLong declared))
      else
        match z.decompress declared (z.compress p) with
        | .error e => .error (.ofInflate declared e)
        | .ok q =>
          if q.length = declared then .ok q
          else .error (.malformed (.wrongBodyLength declared q.length)) := by
  have hwide : p.length % UInt32.size < UInt32.size := Nat.mod_lt _ (by decide)
  have hpeek := Varint.peek_write (Nat.lt_trans hwide (by decide)) (z.compress p)
  rw [Nat.mod_mod] at hpeek
  rw [body_of_compresses h]
  obtain ⟨k, rfl, -⟩ := h
  rw [unpack]
  rw [hpeek]
  dsimp only [bind, Except.bind]
  rewrite [List.drop_left]
  rfl

theorem decode_encode (h : encode z t p = .ok f) (rest : Bytes) :
    decode z t (f ++ rest) =
      match unpack z t (body z t p) with
      | .ok p => .packet p rest
      | .error e => .failed e rest := by
  obtain ⟨hlength, rfl⟩ := encode_eq_ok.mp h
  exact decode_frame hlength rest

/-- A packet that is not empty and not too long to be inflated is read back from its frame, and the
bytes behind the frame are left. -/
theorem decode_encode_of_fits (hz : z.Lawful) (hempty : p ≠ []) (hfits : p.length ≤ maxInflatedLength)
    (h : encode z t p = .ok f) (rest : Bytes) : decode z t (f ++ rest) = .packet p rest := by
  rw [decode_encode h]
  by_cases hc : t.Compresses p
  case neg => rw [unpack_of_stands hc]
  case pos =>
    -- the length that is declared is the true one, and it is not the mark 0
    have hlow : p.length % UInt32.size = p.length := Nat.mod_eq_of_lt (Nat.lt_of_le_of_lt hfits (by decide))
    have hpos : p.length ≠ 0 := fun h => hempty (List.length_eq_zero_iff.mp h)
    rw [unpack_of_compresses hc, hlow]
    dsimp only
    rw [if_neg hpos, if_neg (Nat.not_lt.mpr hfits), hz p.length p (Nat.le_refl _)]
    dsimp only
    rw [if_pos rfl]

/-- No packet that is read is longer than what is inflated at most. -/
theorem length_of_unpack {b q : Bytes} (h : unpack z t b = .ok q) (hb : b.length ≤ maxFrameLength) :
    q.length ≤ maxInflatedLength := by
  cases t with
  | none =>
    cases h
    exact hb
  | some k =>
    rw [unpack] at h
    cases hpeek : Varint.peek b with
    | error e =>
      rw [hpeek] at h
      cases h
    | ok found =>
      rw [hpeek] at h
      cases found with
      | none => cases h
      | some found =>
        obtain ⟨declared, width⟩ := found
        dsimp only [bind, Except.bind] at h
        split at h
        case isTrue =>
          cases h
          rw [List.length_drop]
          exact Nat.le_trans (Nat.sub_le _ _) hb
        case isFalse =>
          split at h
          case isTrue => cases h
          case isFalse hdeclared =>
            split at h
            case h_1 => cases h
            case h_2 =>
              split at h
              case isTrue hlength =>
                cases h
                rw [hlength]
                exact Nat.not_lt.mp hdeclared
              case isFalse => cases h

theorem length_of_decode {s q rest : Bytes} (h : decode z t s = .packet q rest) :
    q.length ≤ maxInflatedLength := by
  obtain ⟨n, w, -, hlong, -, hunpack, -⟩ := decode_eq_packet.mp h
  have hlength : ((s.drop w).take n).length ≤ maxFrameLength := by
    rw [List.length_take]
    exact Nat.le_trans (Nat.min_le_left _ _) hlong
  exact length_of_unpack hunpack hlength

/-- The empty packet is read as what it was compressed to. -/
theorem decode_encode_of_empty (hc : t.Compresses []) (h : encode z t [] = .ok f) (rest : Bytes) :
    decode z t (f ++ rest) = .packet (z.compress []) rest := by
  rw [decode_encode h, unpack_of_compresses hc]
  rfl

/-- Which of the packets that the encoder accepts the decoder gives back. -/
theorem decode_encode_iff (hz : z.Lawful) (hmark : z.compress [] ≠ []) (h : encode z t p = .ok f)
    (rest : Bytes) :
    decode z t (f ++ rest) = .packet p rest ↔
      (t.Compresses p → p ≠ [] ∧ p.length ≤ maxInflatedLength) := by
  constructor
  · intro hread hc
    constructor
    · rintro rfl
      rw [decode_encode_of_empty hc h] at hread
      injection hread with hsame
      exact hmark hsame
    · exact length_of_decode hread
  · intro hgood
    by_cases hc : t.Compresses p
    case pos =>
      obtain ⟨hempty, hfits⟩ := hgood hc
      exact decode_encode_of_fits hz hempty hfits h rest
    case neg => rw [decode_encode h, unpack_of_stands hc]

/-- Three bytes that are sent compressed. -/
theorem decode_encode_of_three :
    ∃ f, encode .wrapped (some 0) [1, 2, 3] = .ok f ∧
      ∀ rest, decode .wrapped (some 0) (f ++ rest) = .packet [1, 2, 3] rest := by
  have hlength : (body .wrapped (some 0) [1, 2, 3]).length ≤ maxFrameLength := by
    have hdeflate := Deflate.length_deflate_le [1, 2, 3]
    have hstored : (Deflate.stored [1, 2, 3]).length = 8 := by
      rw [Deflate.stored]
      rfl
    have hmark : (Varint.write (([1, 2, 3] : Bytes).length % UInt32.size)).length = 1 := by
      rw [Varint.write_of_small (by decide)]
      rfl
    rw [body_of_compresses ⟨0, rfl, by decide⟩, List.length_append, hmark]
    simp only [Compression.wrapped, List.length_cons, List.length_append, Bytes.length_be, maxFrameLength]
    omega
  have h := encode_eq_ok.mpr ⟨hlength, rfl⟩
  refine ⟨_, h, fun rest => ?_⟩
  have hmark : Compression.wrapped.compress [] ≠ [] := List.cons_ne_nil _ _
  have hread := decode_encode_iff Compression.wrapped_lawful hmark h rest
  exact hread.mpr fun _ => ⟨List.cons_ne_nil _ _, by decide⟩

/-- An empty packet that is compressed is not given back. -/
theorem empty_packet_misread :
    let f : Bytes := [9, 0, 0x78, 0x9c, 3, 0, 0, 0, 0, 1]
    encode .wrapped (some 0) [] = .ok f ∧
      decode .wrapped (some 0) f = .packet [0x78, 0x9c, 3, 0, 0, 0, 0, 1] [] := by
  have hcompress : Compression.wrapped.compress [] = [0x78, 0x9c, 3, 0, 0, 0, 0, 1] := by
    simp only [Compression.wrapped, deflate_nil]
    rfl
  have hc : Threshold.Compresses (some 0) [] := ⟨0, rfl, Nat.le_refl 0⟩
  have hbody : body .wrapped (some 0) [] = [0, 0x78, 0x9c, 3, 0, 0, 0, 0, 1] := by
    rw [body_of_compresses hc, hcompress, Varint.write_of_small (by decide)]
    rfl
  intro f
  have h : encode .wrapped (some 0) [] = .ok f := by
    refine encode_eq_ok.mpr ?_
    rw [hbody, Varint.write_of_small (by decide)]
    exact ⟨by decide, rfl⟩
  have hread := decode_encode_of_empty hc h []
  rw [hcompress, List.append_nil] at hread
  exact ⟨h, hread⟩

end Frame
end EditionGateway
