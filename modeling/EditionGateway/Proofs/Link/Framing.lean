import EditionGateway.Link.Frame
import EditionGateway.Proofs.Link.Varint

/-!
Cutting a byte stream into packets. Whether the front of a stream is a frame, and which packet it holds,
does not depend on what follows, so it makes no difference in which pieces the bytes come in.
-/

namespace EditionGateway

namespace Frame

variable {z : Compression} {t : Threshold}

/-- The same outcome, with more bytes behind it. -/
def Decoded.followedBy (x : Bytes) : Decoded → Decoded
  | .incomplete => .incomplete
  | .packet p rest => .packet p (rest ++ x)
  | .failed e rest => .failed e (rest ++ x)

/-- What has been decoded does not depend on what follows. -/
theorem decode_append {s : Bytes} (h : decode z t s ≠ .incomplete) (x : Bytes) :
    decode z t (s ++ x) = (decode z t s).followedBy x := by
  have hpeek : Varint.peek s ≠ .ok none := by
    intro hnone
    rw [decode, hnone] at h
    exact h rfl
  rw [decode, Varint.peek_append hpeek, decode]
  rw [decode] at h
  split
  case h_1 => rfl
  case h_2 => rfl
  case h_3 length width heq =>
    rw [heq] at h
    dsimp only at h ⊢
    split
    case isTrue => rfl
    case isFalse hlong =>
      rw [if_neg hlong] at h
      by_cases hshort : ((s.drop width).take length).length < length
      case pos =>
        rw [if_pos hshort] at h
        exact absurd rfl h
      case neg =>
        have hw := Varint.width_of_peek heq
        have hroom : length ≤ (s.drop width).length := by
          rw [List.length_take] at hshort
          omega
        have hfits : width + length ≤ s.length := by
          rw [List.length_drop] at hroom
          omega
        have hframe : ((s ++ x).drop width).take length = (s.drop width).take length := by
          rw [List.drop_append_of_le_length hw.2, List.take_append_of_le_length hroom]
        rw [hframe, List.drop_append_of_le_length hfits, if_neg hshort, if_neg hshort]
        split <;> rfl

/-- A beginning of the bytes holds the same packet, unless it is too short. -/
theorem decode_of_append_packet {s x p rest : Bytes} (h : decode z t (s ++ x) = .packet p rest) :
    decode z t s = .incomplete ∨ ∃ left, decode z t s = .packet p left ∧ rest = left ++ x := by
  cases hs : decode z t s with
  | incomplete => exact .inl rfl
  | failed e left =>
    rw [decode_append (by rw [hs]; nofun), hs] at h
    cases h
  | packet q left =>
    rw [decode_append (by rw [hs]; nofun), hs] at h
    cases h
    exact .inr ⟨left, rfl, rfl⟩

theorem decode_of_append_incomplete {s x : Bytes} (h : decode z t (s ++ x) = .incomplete) :
    decode z t s = .incomplete := by
  cases hs : decode z t s with
  | incomplete => rfl
  | failed e left =>
    rw [decode_append (by rw [hs]; nofun), hs] at h
    cases h
  | packet q left =>
    rw [decode_append (by rw [hs]; nofun), hs] at h
    cases h

/-- A packet takes up the length in front of its frame and that many bytes. -/
theorem decode_eq_packet {s p rest : Bytes} :
    decode z t s = .packet p rest ↔
      ∃ n w, Varint.peek s = .ok (some (n, w)) ∧ n ≤ maxFrameLength ∧ w + n ≤ s.length ∧
        unpack z t ((s.drop w).take n) = .ok p ∧ rest = s.drop (w + n) := by
  constructor
  · intro h
    rw [decode] at h
    split at h
    case h_1 => cases h
    case h_2 => cases h
    case h_3 n w hpeek =>
      refine ⟨n, w, hpeek, ?_⟩
      dsimp only at h
      split at h
      case isTrue => cases h
      case isFalse hlong =>
        split at h
        case isTrue => cases h
        case isFalse hshort =>
          have hfits : w + n ≤ s.length := by
            have hw := Varint.width_of_peek hpeek
            rw [List.length_take, List.length_drop] at hshort
            omega
          split at h
          case h_1 hunpack =>
            cases h
            exact ⟨by omega, hfits, hunpack, rfl⟩
          case h_2 => cases h
  · rintro ⟨n, w, hpeek, hlong, hfits, hunpack, rfl⟩
    have hshort : ¬ ((s.drop w).take n).length < n := by
      rw [List.length_take, List.length_drop]
      omega
    rw [decode, hpeek]
    dsimp only
    rw [if_neg (by omega), if_neg hshort, hunpack]

theorem length_of_decode_packet {s p rest : Bytes} (h : decode z t s = .packet p rest) :
    rest.length < s.length := by
  obtain ⟨n, w, hpeek, -, hfits, -, rfl⟩ := decode_eq_packet.mp h
  have hw := Varint.width_of_peek hpeek
  rw [List.length_drop]
  omega

/-- A packet is the same whatever stands behind its frame. -/
theorem decode_take {s p : Bytes} {n w : Nat} (hpeek : Varint.peek s = .ok (some (n, w)))
    (hlong : n ≤ maxFrameLength) (hfits : w + n ≤ s.length)
    (hunpack : unpack z t ((s.drop w).take n) = .ok p) (x : Bytes) :
    decode z t (s.take (w + n) ++ x) = .packet p x := by
  have hlength : (s.take (w + n)).length = w + n := List.length_take_of_le hfits
  have hfront : Varint.peek (s.take (w + n) ++ x) = .ok (some (n, w)) := by
    have htake : s.take (w + n) = s.take w ++ (s.drop w).take n := List.take_add
    rw [htake, List.append_assoc]
    exact Varint.peek_take hpeek _
  have hframe : ((s.take (w + n) ++ x).drop w).take n = (s.drop w).take n := by
    rw [List.drop_append_of_le_length (by omega), List.take_append_of_le_length (by
      rw [List.length_drop]
      omega), List.drop_take, List.take_take]
    congr 1
    omega
  refine decode_eq_packet.mpr ⟨n, w, hfront, hlong, ?_, ?_, ?_⟩
  · rw [List.length_append]
    omega
  · rw [hframe]
    exact hunpack
  · rw [List.drop_left' hlength]

/-- What has been cut out of a byte stream: the packets, and what is left, either bytes that hold no
complete frame or the first error. -/
@[ext] structure Cutting where
  packets : List Bytes := []
  left : Except LinkError Bytes := .ok []

/-- Decodes packet after packet, as long as a frame is complete and in order. -/
def cut (z : Compression) (t : Threshold) (s : Bytes) : Cutting :=
  match _h : decode z t s with
  | .incomplete => { left := .ok s }
  | .failed e _ => { left := .error e }
  | .packet p rest =>
    let c := cut z t rest
    { c with packets := p :: c.packets }
termination_by s.length
decreasing_by exact length_of_decode_packet _h

/-- Goes on when more bytes have come in. -/
def Cutting.takeIn (z : Compression) (t : Threshold) (c : Cutting) (chunk : Bytes) : Cutting :=
  match c.left with
  | .error _ => c
  | .ok buffer =>
    let d := cut z t (buffer ++ chunk)
    { d with packets := c.packets ++ d.packets }

theorem cut_of_incomplete {s : Bytes} (h : decode z t s = .incomplete) : cut z t s = { left := .ok s } := by
  rw [cut]
  split
  case h_1 => rfl
  case h_2 heq => rw [h] at heq; cases heq
  case h_3 heq => rw [h] at heq; cases heq

theorem cut_of_failed {s rest : Bytes} {e : LinkError} (h : decode z t s = .failed e rest) :
    cut z t s = { left := .error e } := by
  rw [cut]
  split
  case h_1 heq => rw [h] at heq; cases heq
  case h_2 heq => rw [h] at heq; cases heq; rfl
  case h_3 heq => rw [h] at heq; cases heq

theorem cut_of_packet {s p rest : Bytes} (h : decode z t s = .packet p rest) :
    cut z t s = { cut z t rest with packets := p :: (cut z t rest).packets } := by
  rw [cut]
  split
  case h_1 heq => rw [h] at heq; cases heq
  case h_2 heq => rw [h] at heq; cases heq
  case h_3 heq => rw [h] at heq; cases heq; rfl

/-- Bytes that come in later are cut as if they had been there from the beginning. -/
theorem cut_append (s x : Bytes) : cut z t (s ++ x) = (cut z t s).takeIn z t x := by
  -- each packet that is cut off leaves fewer bytes
  induction hlen : s.length using Nat.strongRecOn generalizing s with
  | ind n ih =>
    subst hlen
    cases h : decode z t s with
    | incomplete =>
      rw [cut_of_incomplete h]
      rfl
    | failed e rest =>
      have happend : decode z t (s ++ x) = .failed e (rest ++ x) := by
        rw [decode_append (by rw [h]; nofun), h]
        rfl
      rw [cut_of_failed h, cut_of_failed happend]
      rfl
    | packet p rest =>
      have happend : decode z t (s ++ x) = .packet p (rest ++ x) := by
        rw [decode_append (by rw [h]; nofun), h]
        rfl
      have hrest := ih _ (length_of_decode_packet h) rest rfl
      rw [cut_of_packet h, cut_of_packet happend, hrest, Cutting.takeIn, Cutting.takeIn]
      dsimp only
      cases hleft : (cut z t rest).left with
      | error e =>
        dsimp only
        rw [hleft]
      | ok buffer => rfl

theorem foldl_takeIn (s : Bytes) (chunks : List Bytes) :
    chunks.foldl (Cutting.takeIn z t) (cut z t s) = cut z t (s ++ chunks.flatten) := by
  induction chunks generalizing s with
  | nil => rw [List.foldl_nil, List.flatten_nil, List.append_nil]
  | cons x chunks ih => rw [List.foldl_cons, ← cut_append, ih, List.flatten_cons, List.append_assoc]

theorem decode_nil : decode z t [] = .incomplete := rfl

theorem cut_nil : cut z t [] = {} := cut_of_incomplete decode_nil

/-- Cutting a stream into packets does not depend on the pieces in which the stream comes in. Without a
complete frame nothing is used up, and a packet uses up its length and its frame, whatever follows. -/
theorem cutting_ignores_chunks (z : Compression) (t : Threshold) :
    (∀ chunks : List Bytes, chunks.foldl (Cutting.takeIn z t) {} = cut z t chunks.flatten) ∧
    (∀ r : FrameReader, (r.tryBuffer z t).1 = none → (r.tryBuffer z t).2.buffer = r.buffer) ∧
    ∀ s p rest, decode z t s = .packet p rest → ∃ n w, Varint.peek s = .ok (some (n, w)) ∧
      w + n ≤ s.length ∧ rest = s.drop (w + n) ∧
      ∀ x, decode z t (s.take (w + n) ++ x) = .packet p x := by
  refine ⟨?_, ?_, ?_⟩
  · intro chunks
    rw [← cut_nil, foldl_takeIn, List.nil_append]
  · intro r h
    rw [FrameReader.tryBuffer] at h ⊢
    split
    case h_1 heq => rw [heq] at h; cases h
    case h_2 heq => rw [heq] at h; cases h
    case h_3 => rfl
  · intro s p rest h
    obtain ⟨n, w, hpeek, hlong, hfits, hunpack, rfl⟩ := decode_eq_packet.mp h
    exact ⟨n, w, hpeek, hfits, rfl, decode_take hpeek hlong hfits hunpack⟩

/-- Two frames in three pieces, one of which ends inside a frame and one behind a length. -/
theorem cutting_ignores_chunks_of_three :
    let chunks : List Bytes := [[3, 7], [8, 9, 1], [5, 2]]
    chunks.foldl (Cutting.takeIn .wrapped none) {} = { packets := [[7, 8, 9], [5]], left := .ok [2] } ∧
      decode .wrapped none ([3, 7, 8, 9] ++ [0]) = .packet [7, 8, 9] [0] := by
  intro chunks
  have first : decode .wrapped none chunks.flatten = .packet [7, 8, 9] [1, 5, 2] := rfl
  have second : decode .wrapped none [1, 5, 2] = .packet [5] [2] := rfl
  have third : decode .wrapped none [2] = .incomplete := rfl
  have h := cutting_ignores_chunks .wrapped none
  constructor
  · rw [h.1 chunks, cut_of_packet first, cut_of_packet second, cut_of_incomplete third]
  · obtain ⟨n, w, hpeek, -, -, hstable⟩ := h.2.2 _ _ _ first
    cases hpeek
    exact hstable [0]

end Frame
end EditionGateway
