import EditionGateway.Link.Stream
import EditionGateway.Proofs.Link.Framing

/-!
Receiving at one end of a stream. What is received next is what the front of the bytes holds that have
come in, whether they have been looked at before or not.
-/

namespace EditionGateway

open EditionGateway.Frame

/-- Whether a frame is complete does not depend on the threshold. -/
theorem Frame.decode_incomplete {z : Compression} {t : Threshold} {s : Bytes}
    (h : decode z t s = .incomplete) (t' : Threshold) : decode z t' s = .incomplete := by
  rw [decode] at h ⊢
  split at h
  case h_1 => cases h
  case h_2 => rfl
  case h_3 =>
    dsimp only at h ⊢
    split at h
    case isTrue => cases h
    case isFalse hlong =>
      rw [if_neg hlong]
      split at h
      case isTrue hshort => exact if_pos hshort
      case isFalse => split at h <;> cases h

namespace FrameReader

variable {z : Compression} {t : Threshold} {r : FrameReader} {i : Intake} {p rest : Bytes}

theorem tryBuffer_packet (h : decode z t r.buffer = .packet p rest) :
    r.tryBuffer z t = (some (.packet p), { r with buffer := rest }) := by
  rw [tryBuffer, h]

theorem tryBuffer_incomplete (h : decode z t r.buffer = .incomplete) :
    r.tryBuffer z t = (none, { r with mayDecode := false }) := by
  rw [tryBuffer, h]

theorem tryBuffer_failed {e : LinkError} (h : decode z t r.buffer = .failed e rest) :
    ∃ r', r.tryBuffer z t = (some (.failed e), r') := by
  rw [tryBuffer, h]
  exact ⟨_, rfl⟩

theorem drain_packet (h : decode z t r.buffer = .packet p rest) :
    r.drain z t = (.packet p, { r with buffer := rest }) := by
  rw [drain, h]

theorem drain_incomplete (h : decode z t r.buffer = .incomplete) :
    ∃ got r', r.drain z t = (got, r') ∧ ∀ p, got ≠ .packet p := by
  rw [drain, h]
  dsimp only
  split
  · exact ⟨_, _, rfl, nofun⟩
  · exact ⟨_, _, rfl, nofun⟩

theorem read_packet (hbuffer : decode z t r.buffer = .incomplete)
    (h : decode z t (r.buffer ++ i.bytes) = .packet p rest) :
    r.read z t i = (some (.packet p), { r with buffer := rest, atEnd := false, mayDecode := true },
      { i with bytes := [] }) := by
  have hbytes : ¬ i.bytes.isEmpty := by
    intro hempty
    rw [List.isEmpty_iff.mp hempty, List.append_nil, hbuffer] at h
    cases h
  rw [read, if_neg hbytes]
  dsimp only
  rw [tryBuffer_packet h]

theorem read_incomplete (hmay : r.mayDecode = false) (hend : r.atEnd = false)
    (h : decode z t (r.buffer ++ i.bytes) = .incomplete) :
    r.read z t i = starve z t { r with buffer := r.buffer ++ i.bytes } i.ahead := by
  rw [read]
  split
  case isTrue hempty => rw [List.isEmpty_iff.mp hempty, List.append_nil]
  case isFalse =>
    dsimp only
    rw [tryBuffer_incomplete h, hmay, hend]

/-- The flags tell what has not been looked at. -/
structure Ready (z : Compression) (t : Threshold) (r : FrameReader) (i : Intake) : Prop where
  sane : r.failed = false
  looked : r.mayDecode = false → decode z t r.buffer = .incomplete
  drained : r.atEnd = true → r.mayDecode = true ∧ i.bytes = [] ∧ i.ahead = .finished

namespace Ready

/-- A packet is received as soon as its frame is complete. -/
theorem packet (hr : r.Ready z t i) (h : decode z t (r.buffer ++ i.bytes) = .packet p rest) :
    ∃ r' i', r.receive z t i = (some (.packet p), r', i') ∧ r'.Ready z t i' ∧ i'.ahead = i.ahead ∧
      r'.buffer ++ i'.bytes = rest := by
  have hread (m : Bool) (hbuffer : decode z t r.buffer = .incomplete) :
      read z t { r with mayDecode := m } i =
        (some (.packet p), { r with buffer := rest, atEnd := false, mayDecode := true },
          { i with bytes := [] }) :=
    read_packet hbuffer h
  have hready : Ready z t { r with buffer := rest, atEnd := false, mayDecode := true }
      { i with bytes := [] } := ⟨hr.sane, nofun, nofun⟩
  rw [receive, if_neg (by simp [hr.sane])]
  by_cases hmay : r.mayDecode = true
  case neg =>
    have hmay := Bool.eq_false_iff.mpr hmay
    have hself : r = { r with mayDecode := r.mayDecode } := rfl
    rw [if_neg (by simp [hmay]), if_neg (by simp [hmay]), hself, hread _ (hr.looked hmay)]
    exact ⟨_, _, rfl, hready, rfl, List.append_nil _⟩
  case pos =>
    by_cases hend : r.atEnd = true
    case pos =>
      -- after the end of the stream all bytes are in the buffer
      obtain ⟨-, hbytes, hahead⟩ := hr.drained hend
      rw [hbytes, List.append_nil] at h
      rw [if_pos ⟨hmay, hend⟩, drain_packet h]
      refine ⟨_, _, rfl, ⟨hr.sane, fun hnot => ?_, fun _ => ⟨hmay, hbytes, hahead⟩⟩, rfl, ?_⟩
      · rw [hmay] at hnot
        cases hnot
      · rw [hbytes, List.append_nil]
    case neg =>
      rw [if_neg (fun hboth => hend hboth.2), if_pos hmay]
      obtain hbuffer | ⟨left, hbuffer, rfl⟩ := decode_of_append_packet h
      · rw [tryBuffer_incomplete hbuffer]
        dsimp only
        rw [hread _ hbuffer]
        exact ⟨_, _, rfl, hready, rfl, List.append_nil _⟩
      · rw [tryBuffer_packet hbuffer]
        refine ⟨_, _, rfl, ⟨hr.sane, fun hnot => ?_, fun hat => absurd hat hend⟩, rfl, rfl⟩
        rw [hmay] at hnot
        cases hnot

/-- A frame that is not in order is an error as soon as that can be told. -/
theorem failed (hr : r.Ready z t i) {e : LinkError}
    (h : decode z t (r.buffer ++ i.bytes) = .failed e rest) :
    ∃ r' i', r.receive z t i = (some (.failed e), r', i') := by
  have hread (m : Bool) (hbuffer : decode z t r.buffer = .incomplete) :
      ∃ r' i', read z t { r with mayDecode := m } i = (some (.failed e), r', i') := by
    have hbytes : ¬ i.bytes.isEmpty := by
      intro hempty
      rw [List.isEmpty_iff.mp hempty, List.append_nil, hbuffer] at h
      cases h
    obtain ⟨r', hbuffer'⟩ := @tryBuffer_failed z t
      { r with buffer := r.buffer ++ i.bytes, atEnd := false, mayDecode := true } rest e h
    rw [read, if_neg hbytes]
    dsimp only
    rw [hbuffer']
    exact ⟨_, _, rfl⟩
  rw [receive, if_neg (by simp [hr.sane])]
  by_cases hmay : r.mayDecode = true
  case neg =>
    have hmay := Bool.eq_false_iff.mpr hmay
    rw [if_neg (by simp [hmay]), if_neg (by simp [hmay])]
    exact hread _ (hr.looked hmay)
  case pos =>
    by_cases hend : r.atEnd = true
    case pos =>
      obtain ⟨-, hbytes, -⟩ := hr.drained hend
      rw [hbytes, List.append_nil] at h
      rw [if_pos ⟨hmay, hend⟩, drain, h]
      exact ⟨_, _, rfl⟩
    case neg =>
      rw [if_neg (fun hboth => hend hboth.2), if_pos hmay]
      cases hbuffer : decode z t r.buffer with
      | incomplete =>
        rw [tryBuffer_incomplete hbuffer]
        exact hread _ hbuffer
      | packet p left =>
        rw [decode_append (by rw [hbuffer]; nofun), hbuffer] at h
        cases h
      | failed e' left =>
        rw [decode_append (by rw [hbuffer]; nofun), hbuffer] at h
        cases h
        obtain ⟨r', hbuffer'⟩ := tryBuffer_failed hbuffer
        rw [hbuffer']
        exact ⟨_, _, rfl⟩

/-- Without a complete frame all that has come in is looked at. -/
theorem incomplete (hr : r.Ready z t i) (hend : r.atEnd = false)
    (h : decode z t (r.buffer ++ i.bytes) = .incomplete) :
    r.receive z t i =
      starve z t { r with buffer := r.buffer ++ i.bytes, mayDecode := false } i.ahead := by
  have hread : read z t { r with mayDecode := false } i =
      starve z t { r with buffer := r.buffer ++ i.bytes, mayDecode := false } i.ahead :=
    @read_incomplete z t { r with mayDecode := false } i rfl hend h
  rw [receive, if_neg (by simp [hr.sane]), if_neg (by simp [hend])]
  by_cases hmay : r.mayDecode = true
  case neg =>
    have hself : r = { r with mayDecode := false } := by
      rw [← Bool.eq_false_iff.mpr hmay]
    rw [if_neg hmay]
    conv => lhs; rw [hself]
    exact hread
  case pos =>
    rw [if_pos hmay, tryBuffer_incomplete (decode_of_append_incomplete h)]
    dsimp only
    exact hread

/-- Without a complete frame the reader waits as long as more may come. -/
theorem waits (hr : r.Ready z t i) (h : decode z t (r.buffer ++ i.bytes) = .incomplete)
    (hahead : i.ahead = .more) :
    ∃ r' i', r.receive z t i = (none, r', i') ∧ r'.Ready z t i' ∧ i'.ahead = .more ∧
      r'.buffer ++ i'.bytes = r.buffer ++ i.bytes := by
  have hend : r.atEnd = false := by
    refine Bool.eq_false_iff.mpr fun hat => ?_
    have hfinished := (hr.drained hat).2.2
    rw [hahead] at hfinished
    cases hfinished
  rw [hr.incomplete hend h, hahead, starve]
  refine ⟨_, _, rfl, ⟨hr.sane, fun _ => h, fun hat => ?_⟩, rfl, List.append_nil _⟩
  rw [hend] at hat
  cases hat

/-- After the last packet there are no more. -/
theorem ends (hr : r.Ready z t i) (h : decode z t (r.buffer ++ i.bytes) = .incomplete)
    (hahead : i.ahead ≠ .more) :
    ∃ got r' i', r.receive z t i = (some got, r', i') ∧ ∀ p, got ≠ .packet p := by
  by_cases hend : r.atEnd = true
  case pos =>
    obtain ⟨hmay, hbytes, -⟩ := hr.drained hend
    rw [hbytes, List.append_nil] at h
    obtain ⟨got, r', hdrain, hgot⟩ := drain_incomplete h
    rw [receive, if_neg (by simp [hr.sane]), if_pos ⟨hmay, hend⟩, hdrain]
    exact ⟨_, _, _, rfl, hgot⟩
  case neg =>
    have hend := Bool.eq_false_iff.mpr hend
    rw [hr.incomplete hend h]
    cases hnext : i.ahead with
    | more => exact absurd hnext hahead
    | finished =>
      rw [starve, if_neg (by simp [hend])]
      obtain ⟨got, r', hdrain, hgot⟩ := @drain_incomplete z t
        { r with buffer := r.buffer ++ i.bytes, atEnd := true, mayDecode := true } h
      rw [hdrain]
      exact ⟨_, _, _, rfl, hgot⟩
    | reset => exact ⟨_, _, _, rfl, nofun⟩

end Ready
end FrameReader

namespace StreamEnd

/-- The bytes of the peer that have come in and have not been received. -/
def pending (s : StreamEnd) : Bytes := s.reader.buffer ++ s.intake.bytes

/-- The end is open and its reader in order. -/
structure Receptive (s : StreamEnd) : Prop where
  opened : s.closed = false
  ready : s.reader.Ready s.compression s.threshold s.intake

/-- What is received next is told by the bytes that have come in. -/
structure Follows (s s' : StreamEnd) (rest : Bytes) : Prop where
  receptive : s'.Receptive
  compression : s'.compression = s.compression
  threshold : s'.threshold = s.threshold
  ahead : s'.intake.ahead = s.intake.ahead
  pending : s'.pending = rest

namespace Receptive

variable {s : StreamEnd} {p rest : Bytes}

theorem receive_packet (h : s.Receptive) (hp : decode s.compression s.threshold s.pending = .packet p rest) :
    ∃ s', s.receive = (some (.packet p), s') ∧ s.Follows s' rest := by
  obtain ⟨r', i', hreceive, hready, hahead, hrest⟩ := h.ready.packet hp
  rw [receive, if_neg (by simp [h.opened]), hreceive]
  exact ⟨_, rfl, ⟨h.opened, hready⟩, rfl, rfl, hahead, hrest⟩

theorem receive_waits (h : s.Receptive) (hp : decode s.compression s.threshold s.pending = .incomplete)
    (hahead : s.intake.ahead = .more) :
    ∃ s', s.receive = (none, s') ∧ s.Follows s' s.pending := by
  obtain ⟨r', i', hreceive, hready, hmore, hrest⟩ := h.ready.waits hp hahead
  rw [receive, if_neg (by simp [h.opened]), hreceive]
  exact ⟨_, rfl, ⟨h.opened, hready⟩, rfl, rfl, hmore.trans hahead.symm, hrest⟩

theorem receive_failed (h : s.Receptive) {e : LinkError}
    (hp : decode s.compression s.threshold s.pending = .failed e rest) :
    ∃ s', s.receive = (some (.failed e), s') := by
  obtain ⟨r', i', hreceive⟩ := h.ready.failed hp
  rw [receive, if_neg (by simp [h.opened]), hreceive]
  exact ⟨_, rfl⟩

theorem receive_ends (h : s.Receptive) (hp : decode s.compression s.threshold s.pending = .incomplete)
    (hahead : s.intake.ahead ≠ .more) :
    ∃ got s', s.receive = (some got, s') ∧ ∀ p, got ≠ .packet p := by
  obtain ⟨got, r', i', hreceive, hgot⟩ := h.ready.ends hp hahead
  rw [receive, if_neg (by simp [h.opened]), hreceive]
  exact ⟨_, _, rfl, hgot⟩

theorem setThreshold (h : s.Receptive) (t : Threshold) : (s.setThreshold t).Receptive :=
  ⟨h.opened, h.ready.sane, fun hnot => decode_incomplete (h.ready.looked hnot) _, h.ready.drained⟩

theorem feed (h : s.Receptive) (hahead : s.intake.ahead = .more) (b : Bytes) : (s.feed b).Receptive := by
  refine ⟨h.opened, h.ready.sane, h.ready.looked, fun hat => ?_⟩
  have hfinished := (h.ready.drained hat).2.2
  rw [hahead] at hfinished
  cases hfinished

end Receptive

theorem pending_feed (s : StreamEnd) (b : Bytes) : (s.feed b).pending = s.pending ++ b :=
  (List.append_assoc _ _ _).symm

end StreamEnd
end EditionGateway
