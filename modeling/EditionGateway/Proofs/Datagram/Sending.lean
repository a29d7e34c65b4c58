import EditionGateway.Datagram.Connection

/-!
What goes out over a connection. A packet is sent in one fragment, or it is cut into parts that have a
split number in common; `split_of_long` says which one.
-/

namespace EditionGateway
namespace Datagram

section Chunks

variable {n : Nat} (hn : 0 < n)
include hn

theorem chunks_of_ne_nil {b : Bytes} (hb : b ≠ []) : chunks n b = b.take n :: chunks n (b.drop n) := by
  rw [chunks, dif_neg]
  rintro (h | h)
  · exact hb h
  · omega

theorem flatten_chunks (b : Bytes) : (chunks n b).flatten = b := by
  induction b using chunks.induct n with
  | case1 b h =>
    obtain rfl : b = [] := h.resolve_right (by omega)
    rw [chunks, dif_pos h]
    rfl
  | case2 b h ih =>
    rw [chunks, dif_neg h, List.flatten_cons, ih, List.take_append_drop]

theorem length_chunks (b : Bytes) : (chunks n b).length = (b.length + n - 1) / n := by
  induction b using chunks.induct n with
  | case1 b h =>
    obtain rfl : b = [] := h.resolve_right (by omega)
    have hsmall : (0 + n - 1) / n = 0 := Nat.div_eq_of_lt (by omega)
    rw [chunks, dif_pos h, List.length_nil, List.length_nil, hsmall]
  | case2 b h ih =>
    have hpos : 0 < b.length := List.length_pos_iff.mpr fun h' => h (.inl h')
    rw [chunks, dif_neg h, List.length_cons, ih, List.length_drop]
    by_cases hle : b.length ≤ n
    · have hrest : (b.length - n + n - 1) / n = 0 := Nat.div_eq_of_lt (by omega)
      have hone : (b.length + n - 1) / n = 1 := Nat.div_eq_of_lt_le (by omega) (by omega)
      rw [hrest, hone]
    · have hlen : b.length + n - 1 = (b.length - n + n - 1) + n := by omega
      rw [hlen, Nat.add_div_right _ hn]

theorem one_lt_length_chunks {b : Bytes} (hb : n < b.length) : 1 < (chunks n b).length := by
  rw [length_chunks hn]
  exact (Nat.le_div_iff_mul_le hn).mpr (by omega)

theorem chunks_append {a b : Bytes} (ha : a.length = n) (hb : b ≠ []) (hle : b.length ≤ n) :
    chunks n (a ++ b) = [a, b] := by
  have hne : a ++ b ≠ [] := by simp [hb]
  have htake : b.take n = b := List.take_of_length_le hle
  have hdrop : b.drop n = [] := List.drop_eq_nil_of_le hle
  have hnil : chunks n [] = [] := by rw [chunks, dif_pos (.inl rfl)]
  rw [chunks_of_ne_nil hn hne, ← ha, List.take_left, List.drop_left, ha, chunks_of_ne_nil hn hb,
    htake, hdrop, hnil]

end Chunks

theorem length_le_of_mem_chunks {n : Nat} {b x : Bytes} (hx : x ∈ chunks n b) : x.length ≤ n := by
  induction b using chunks.induct n with
  | case1 b h =>
    rw [chunks, dif_pos h] at hx
    cases hx
  | case2 b h ih =>
    rw [chunks, dif_neg h] at hx
    obtain hx | hx := List.mem_cons.mp hx
    · rw [hx]
      exact List.length_take_le n b
    · exact ih hx

theorem Fragment.length_encode (f : Fragment) : f.encode.length = headerLength + f.payload.length := by
  simp only [encode, List.length_append, List.length_cons, Bytes.length_be, headerLength]

/-- The fragments of a packet with these parts. -/
def fragmentsOf (seq : UInt32) (split : UInt16) (parts : List Bytes) : List Fragment :=
  parts.zipIdx.map fun (payload, i) =>
    ⟨seq, split, UInt16.ofNat i, UInt16.ofNat parts.length, payload⟩

@[simp] theorem length_fragmentsOf (seq : UInt32) (split : UInt16) (parts : List Bytes) :
    (fragmentsOf seq split parts).length = parts.length := by
  simp [fragmentsOf]

/-- A fragment is part `i` of a packet with these parts. -/
structure Fragment.IsPart (f : Fragment) (seq : UInt32) (split : UInt16) (parts : List Bytes) (i : Nat) :
    Prop where
  seq : f.seq = seq
  split : f.split = split
  index : f.index.toNat = i
  count : f.count.toNat = parts.length
  payload : parts[i]? = some f.payload
  few : parts.length ≤ maxFragments

theorem Fragment.IsPart.lt {f : Fragment} {seq : UInt32} {split : UInt16} {parts : List Bytes} {i : Nat}
    (h : f.IsPart seq split parts i) : i < parts.length :=
  (List.getElem?_eq_some_iff.mp h.payload).1

theorem isPart_fragmentsOf {seq : UInt32} {split : UInt16} {parts : List Bytes}
    (few : parts.length ≤ maxFragments) {f : Fragment} {i : Nat}
    (hf : (fragmentsOf seq split parts)[i]? = some f) : f.IsPart seq split parts i := by
  simp only [fragmentsOf, List.getElem?_map, List.getElem?_zipIdx, Option.map_map,
    Option.map_eq_some_iff, Function.comp_apply, Nat.zero_add] at hf
  obtain ⟨b, hb, rfl⟩ := hf
  obtain ⟨hlt, -⟩ := List.getElem?_eq_some_iff.mp hb
  have hmax : maxFragments = 512 := rfl
  have hsize : UInt16.size = 65536 := rfl
  exact ⟨rfl, rfl, UInt16.toNat_ofNat_of_lt (by omega), UInt16.toNat_ofNat_of_lt (by omega), hb, few⟩

/-- A packet that has been sent. -/
structure Posted where
  number : Nat
  body : Bytes
  fragments : List Fragment

namespace Posted

/-- How the fragments of a packet make it up. -/
structure Cut (p : Posted) (seq : UInt32) (split : UInt16) (parts : List Bytes) : Prop where
  fragments : p.fragments = fragmentsOf seq split parts
  body : parts.flatten = p.body
  pos : 0 < parts.length
  few : parts.length ≤ maxFragments

def isLong (p : Posted) : Bool := 1 < p.fragments.length

theorem Cut.isLong {p : Posted} {seq : UInt32} {split : UInt16} {parts : List Bytes}
    (h : p.Cut seq split parts) : p.isLong = decide (1 < parts.length) := by
  rw [Posted.isLong, h.fragments, length_fragmentsOf]

theorem Cut.isPart {p : Posted} {seq : UInt32} {split : UInt16} {parts : List Bytes}
    (h : p.Cut seq split parts) {f : Fragment} {i : Nat} (hf : p.fragments[i]? = some f) :
    f.IsPart seq split parts i :=
  isPart_fragmentsOf h.few (h.fragments ▸ hf)

theorem Cut.length_fragments {p : Posted} {seq : UInt32} {split : UInt16} {parts : List Bytes}
    (h : p.Cut seq split parts) : p.fragments.length = parts.length := by
  rw [h.fragments, length_fragmentsOf]

def seq (p : Posted) : UInt32 := (p.fragments.head?.map (·.seq)).getD 0

def split (p : Posted) : UInt16 := (p.fragments.head?.map (·.split)).getD 0

section Cut

variable {p : Posted} {seq : UInt32} {split : UInt16} {parts : List Bytes}

theorem Cut.fragments_ne_nil (h : p.Cut seq split parts) : p.fragments ≠ [] := by
  intro hnil
  have hlength := h.length_fragments
  rw [hnil] at hlength
  exact Nat.ne_of_gt h.pos hlength.symm

theorem Cut.seq_eq (h : p.Cut seq split parts) : p.seq = seq := by
  obtain ⟨f, fs, hf⟩ := List.exists_cons_of_ne_nil h.fragments_ne_nil
  have hpart := h.isPart (f := f) (i := 0) (by rw [hf]; rfl)
  rw [Posted.seq, hf]
  exact hpart.seq

theorem Cut.split_eq (h : p.Cut seq split parts) : p.split = split := by
  obtain ⟨f, fs, hf⟩ := List.exists_cons_of_ne_nil h.fragments_ne_nil
  have hpart := h.isPart (f := f) (i := 0) (by rw [hf]; rfl)
  rw [Posted.split, hf]
  exact hpart.split

end Cut

end Posted

namespace Connection

/-- Sends packets one after another, each under a threshold of its own. What is refused has a number
all the same. -/
def sendAll (c : Connection) (number : Nat) : List (Threshold × Bytes) → List Posted
  | [] => []
  | (t, p) :: ps =>
    match (c.setThreshold t).send p with
    | (.ok fragments, d) =>
      ⟨number, encodeBody c.compression t.clamp p, fragments⟩ :: d.sendAll (number + 1) ps
    | (.error _, d) => d.sendAll (number + 1) ps

section Send

variable {c : Connection} {p : Bytes}

theorem maxPayload_pos (c : Connection) : 0 < c.maxPayload :=
  Nat.lt_of_lt_of_le Nat.zero_lt_one (Nat.le_max_right _ 1)

theorem send_of_short (hopen : c.closed = false)
    (hle : (encodeBody c.compression c.threshold p).length ≤ c.maxPayload) :
    c.send p = (.ok (fragmentsOf c.nextSeq 0 [encodeBody c.compression c.threshold p]),
      { c with nextSeq := c.nextSeq + 1 }) := by
  rw [send, if_neg (by simp [hopen])]
  exact if_pos hle

theorem send_of_long (hopen : c.closed = false)
    (hlt : c.maxPayload < (encodeBody c.compression c.threshold p).length)
    (few : (chunks c.maxPayload (encodeBody c.compression c.threshold p)).length ≤ maxFragments) :
    c.send p = (.ok (fragmentsOf c.nextSeq c.nextSplit
        (chunks c.maxPayload (encodeBody c.compression c.threshold p))),
      { c with nextSeq := c.nextSeq + 1, nextSplit := c.nextSplit + 1 }) := by
  have hlen := length_chunks c.maxPayload_pos (encodeBody c.compression c.threshold p)
  rw [hlen] at few
  rw [send, if_neg (by simp [hopen]), fragmentsOf, hlen]
  dsimp only
  refine (if_neg (Nat.not_le_of_lt hlt)).trans ?_
  exact if_neg (Nat.not_lt_of_le few)

theorem send_of_tooLong (hopen : c.closed = false)
    (hlt : c.maxPayload < (encodeBody c.compression c.threshold p).length)
    (many : maxFragments < (chunks c.maxPayload (encodeBody c.compression c.threshold p)).length) :
    ∃ err, c.send p = (.error err, { c with nextSeq := c.nextSeq + 1 }) := by
  have hlen := length_chunks c.maxPayload_pos (encodeBody c.compression c.threshold p)
  rw [hlen] at many
  rw [send, if_neg (by simp [hopen])]
  exact ⟨_, (if_neg (Nat.not_le_of_lt hlt)).trans (if_pos many)⟩

/-- No fragment carries more than the longest payload. -/
theorem length_payload_of_send {fragments : List Fragment} (h : (c.send p).1 = .ok fragments)
    {f : Fragment} (hf : f ∈ fragments) : f.payload.length ≤ c.maxPayload := by
  by_cases hclosed : c.closed = true
  · rw [send, if_pos hclosed] at h
    cases h
  have hopen : c.closed = false := by simpa using hclosed
  have hpart {seq : UInt32} {split : UInt16} {parts : List Bytes} (hf : f ∈ fragmentsOf seq split parts)
      (hparts : ∀ b ∈ parts, b.length ≤ c.maxPayload) : f.payload.length ≤ c.maxPayload := by
    obtain ⟨⟨b, i⟩, hb, rfl⟩ := List.mem_map.mp hf
    exact hparts b (List.fst_mem_of_mem_zipIdx hb)
  by_cases hle : (encodeBody c.compression c.threshold p).length ≤ c.maxPayload
  · rw [send_of_short hopen hle] at h
    cases h
    exact hpart hf (by simpa using hle)
  · have hlt := Nat.lt_of_not_le hle
    by_cases few : (chunks c.maxPayload (encodeBody c.compression c.threshold p)).length ≤ maxFragments
    · rw [send_of_long hopen hlt few] at h
      cases h
      exact hpart hf fun b hb => length_le_of_mem_chunks hb
    · obtain ⟨err, herr⟩ := send_of_tooLong hopen hlt (Nat.lt_of_not_le few)
      rw [herr] at h
      cases h

theorem send_of_fits (c : Connection) (hopen : c.closed = false)
    (hle : (encodeBody c.compression c.threshold p).length ≤ maxFragments * c.maxPayload) :
    ∃ fs d, c.send p = (.ok fs, d) ∧ d.closed = false ∧ d.mtu = c.mtu ∧ d.compression = c.compression := by
  by_cases hshort : (encodeBody c.compression c.threshold p).length ≤ c.maxPayload
  · exact ⟨_, _, send_of_short hopen hshort, hopen, rfl, rfl⟩
  · have few : (chunks c.maxPayload (encodeBody c.compression c.threshold p)).length ≤ maxFragments := by
      rw [length_chunks c.maxPayload_pos]
      exact (Nat.div_le_iff_le_mul c.maxPayload_pos).mpr (by omega)
    exact ⟨_, _, send_of_long hopen (Nat.lt_of_not_le hshort) few, hopen, rfl, rfl⟩

/-- What becomes of a packet. If it has several parts, it uses up a split number. -/
theorem send_cases (c : Connection) (p : Bytes) :
    (∃ err d, c.send p = (.error err, d) ∧ d.nextSplit = c.nextSplit ∧ d.compression = c.compression) ∨
      ∃ parts, c.send p =
          (.ok (fragmentsOf c.nextSeq (if 1 < parts.length then c.nextSplit else 0) parts),
            { c with
              nextSeq := c.nextSeq + 1
              nextSplit := if 1 < parts.length then c.nextSplit + 1 else c.nextSplit }) ∧
        parts.flatten = encodeBody c.compression c.threshold p ∧ 0 < parts.length ∧
        parts.length ≤ maxFragments ∧ c.closed = false := by
  by_cases hclosed : c.closed = true
  · exact .inl ⟨_, c, by rw [send, if_pos hclosed], rfl, rfl⟩
  have hopen : c.closed = false := by simpa using hclosed
  by_cases hle : (encodeBody c.compression c.threshold p).length ≤ c.maxPayload
  · exact .inr ⟨[encodeBody c.compression c.threshold p], send_of_short hopen hle, by simp, by simp,
      Nat.le_of_ble_eq_true rfl, hopen⟩
  have hlt : c.maxPayload < (encodeBody c.compression c.threshold p).length := Nat.lt_of_not_le hle
  by_cases many : maxFragments < (chunks c.maxPayload (encodeBody c.compression c.threshold p)).length
  · obtain ⟨err, herr⟩ := send_of_tooLong hopen hlt many
    exact .inl ⟨err, _, herr, rfl, rfl⟩
  · have few := Nat.le_of_not_lt many
    have hflat := flatten_chunks c.maxPayload_pos (encodeBody c.compression c.threshold p)
    have hseveral := one_lt_length_chunks c.maxPayload_pos hlt
    refine .inr ⟨chunks c.maxPayload (encodeBody c.compression c.threshold p), ?_, hflat, ?_, few, hopen⟩
    · rw [if_pos hseveral, if_pos hseveral]
      exact send_of_long hopen hlt few
    · exact Nat.lt_of_succ_lt hseveral

end Send

section SendAll

variable {c : Connection} {number : Nat} {ps : List (Threshold × Bytes)}

theorem length_sendAll_le (c : Connection) (number : Nat) (ps : List (Threshold × Bytes)) :
    (c.sendAll number ps).length ≤ ps.length := by
  induction ps generalizing c number with
  | nil => exact Nat.le_refl 0
  | cons tp ps ih =>
    rw [sendAll]
    split
    · exact Nat.succ_le_succ (ih _ _)
    · exact Nat.le_succ_of_le (ih _ _)

/-- The first packet is refused, or it is cut into parts. -/
theorem sendAll_cons (c : Connection) (number : Nat) (t : Threshold) (b : Bytes)
    (ps : List (Threshold × Bytes)) :
    (∃ d : Connection, c.sendAll number ((t, b) :: ps) = d.sendAll (number + 1) ps ∧
      d.nextSplit = c.nextSplit ∧ d.compression = c.compression) ∨
    ∃ (p : Posted) (d : Connection) (parts : List Bytes),
      c.sendAll number ((t, b) :: ps) = p :: d.sendAll (number + 1) ps ∧
      p.Cut c.nextSeq (if 1 < parts.length then c.nextSplit else 0) parts ∧
      p.body = encodeBody c.compression t.clamp b ∧ d.nextSeq = c.nextSeq + 1 ∧
      d.nextSplit = (if 1 < parts.length then c.nextSplit + 1 else c.nextSplit) ∧
      d.compression = c.compression := by
  rw [sendAll]
  obtain ⟨err, d, hsend, hsplit, hsame⟩ | ⟨parts, hsend, hflat, hpos, hfew, -⟩ :=
    (c.setThreshold t).send_cases b
  · rw [hsend]
    exact .inl ⟨d, rfl, hsplit, hsame⟩
  · rw [hsend]
    exact .inr ⟨_, _, parts, rfl, ⟨rfl, hflat, hpos, hfew⟩, rfl, rfl, rfl, rfl⟩

/-- No packet is refused that fits into the fragments that there may be. -/
theorem length_sendAll (hopen : c.closed = false)
    (fits : ∀ t b, (t, b) ∈ ps →
      (encodeBody c.compression t.clamp b).length ≤ maxFragments * c.maxPayload) :
    (c.sendAll number ps).length = ps.length := by
  induction ps generalizing c number with
  | nil => rfl
  | cons tb ps ih =>
    obtain ⟨t, b⟩ := tb
    have hfit := fits t b List.mem_cons_self
    obtain ⟨fs, d, hsend, hd, hmtu, hsame⟩ := (c.setThreshold t).send_of_fits hopen hfit
    have hmax : d.maxPayload = c.maxPayload := congrArg (fun m : UInt16 => max (m.toNat - _) 1) hmtu
    rw [sendAll, hsend]
    refine congrArg Nat.succ (ih hd fun t b hb => ?_)
    rw [hmax, hsame]
    exact fits t b (List.mem_cons_of_mem _ hb)

/-- What has been sent is cut into parts. -/
theorem cut_of_mem {p : Posted} (hp : p ∈ c.sendAll number ps) :
    ∃ seq split parts, p.Cut seq split parts := by
  induction ps generalizing c number with
  | nil => cases hp
  | cons tb ps ih =>
    obtain ⟨d, heq, -⟩ | ⟨q, d, parts, heq, hcut, -⟩ := c.sendAll_cons number tb.1 tb.2 ps
    · exact ih (heq ▸ hp)
    · obtain rfl | hp := List.mem_cons.mp (heq ▸ hp)
      · exact ⟨_, _, parts, hcut⟩
      · exact ih hp

theorem body_of_mem {p : Posted} (hp : p ∈ c.sendAll number ps) :
    ∃ t b, (t, b) ∈ ps ∧ p.body = encodeBody c.compression t.clamp b := by
  induction ps generalizing c number with
  | nil => cases hp
  | cons tb ps ih =>
    have later {d : Connection} (hsame : d.compression = c.compression)
        (hp : p ∈ d.sendAll (number + 1) ps) :
        ∃ t b, (t, b) ∈ tb :: ps ∧ p.body = encodeBody c.compression t.clamp b := by
      obtain ⟨t, b, hb, hbody⟩ := ih hp
      exact ⟨t, b, List.mem_cons_of_mem _ hb, hsame ▸ hbody⟩
    obtain ⟨d, heq, -, hsame⟩ | ⟨q, d, parts, heq, -, hbody, -, -, hsame⟩ :=
      c.sendAll_cons number tb.1 tb.2 ps
    · exact later hsame (heq ▸ hp)
    · obtain rfl | hp := List.mem_cons.mp (heq ▸ hp)
      · exact ⟨tb.1, tb.2, List.mem_cons_self, hbody⟩
      · exact later hsame hp

/-- The packets of several parts take one split number after another. -/
theorem split_of_long {p : Posted} {i : Nat}
    (hi : ((c.sendAll number ps).filter Posted.isLong)[i]? = some p) :
    ∃ seq parts, p.Cut seq (c.nextSplit + UInt16.ofNat i) parts := by
  induction ps generalizing c number i with
  | nil => cases hi
  | cons tb ps ih =>
    obtain ⟨d, heq, hsplit, -⟩ | ⟨q, d, parts, heq, hcut, -, -, hsplit, -⟩ :=
      c.sendAll_cons number tb.1 tb.2 ps
    · rw [← hsplit]
      exact ih (heq ▸ hi)
    · have hi : ((q :: d.sendAll (number + 1) ps).filter Posted.isLong)[i]? = some p := heq ▸ hi
      have hlong : q.isLong = decide (1 < parts.length) := hcut.isLong
      by_cases hseveral : 1 < parts.length
      · rw [if_pos hseveral] at hcut hsplit
        rw [List.filter_cons_of_pos (by simp [hlong, hseveral])] at hi
        cases i with
        | zero =>
          obtain rfl : q = p := Option.some.inj hi
          have hzero : c.nextSplit + UInt16.ofNat 0 = c.nextSplit := UInt16.add_zero _
          rw [hzero]
          exact ⟨_, parts, hcut⟩
        | succ i =>
          have hnext : c.nextSplit + UInt16.ofNat (i + 1) = d.nextSplit + UInt16.ofNat i := by
            have hsucc : UInt16.ofNat (i + 1) = 1 + UInt16.ofNat i := by
              rw [UInt16.ofNat_add, UInt16.add_comm]
              rfl
            rw [hsplit, hsucc, UInt16.add_assoc]
          rw [hnext]
          exact ih hi
      · rw [if_neg hseveral] at hsplit
        rw [List.filter_cons_of_neg (by simp [hlong, hseveral])] at hi
        rw [← hsplit]
        exact ih hi

/-- Among as many packets of several parts as there are split numbers, no two have the same one. -/
theorem eq_of_split (few : ((c.sendAll number ps).filter Posted.isLong).length ≤ UInt16.size)
    {p q : Posted} (hp : p ∈ c.sendAll number ps) (hq : q ∈ c.sendAll number ps)
    (hplong : p.isLong = true) (hqlong : q.isLong = true) (same : p.split = q.split) : p = q := by
  -- a split number is the place of the packet among those of several parts
  have place {p : Posted} (hp : p ∈ c.sendAll number ps) (hlong : p.isLong = true) :
      ∃ i, i < UInt16.size ∧ ((c.sendAll number ps).filter Posted.isLong)[i]? = some p ∧
        p.split = c.nextSplit + UInt16.ofNat i := by
    obtain ⟨i, hi⟩ := List.mem_iff_getElem?.mp (List.mem_filter.mpr ⟨hp, hlong⟩)
    obtain ⟨hlt, -⟩ := List.getElem?_eq_some_iff.mp hi
    obtain ⟨seq, parts, hcut⟩ := split_of_long hi
    exact ⟨i, Nat.lt_of_lt_of_le hlt few, hi, hcut.split_eq⟩
  obtain ⟨i, hi, hgeti, hspliti⟩ := place hp hplong
  obtain ⟨j, hj, hgetj, hsplitj⟩ := place hq hqlong
  have hsame : UInt16.ofNat i = UInt16.ofNat j := by
    rw [hspliti, hsplitj] at same
    exact (UInt16.add_right_inj _).mp same
  have hij : i = j := by
    have := congrArg UInt16.toNat hsame
    rwa [UInt16.toNat_ofNat_of_lt' hi, UInt16.toNat_ofNat_of_lt' hj] at this
  rw [hij, hgetj] at hgeti
  exact (Option.some.inj hgeti).symm

theorem number_le_of_mem {p : Posted} (hp : p ∈ c.sendAll number ps) : number ≤ p.number := by
  induction ps generalizing c number with
  | nil => cases hp
  | cons tb ps ih =>
    rw [sendAll] at hp
    split at hp
    · rcases List.mem_cons.mp hp with rfl | hp
      · exact Nat.le_refl number
      · exact Nat.le_of_succ_le (ih hp)
    · exact Nat.le_of_succ_le (ih hp)

/-- Packets are numbered in the order in which they are sent. -/
theorem sendAll_increasing (c : Connection) (number : Nat) (ps : List (Threshold × Bytes)) :
    (c.sendAll number ps).Pairwise (·.number < ·.number) := by
  induction ps generalizing c number with
  | nil => exact .nil
  | cons tb ps ih =>
    rw [sendAll]
    split
    · exact .cons (fun p hp => number_le_of_mem hp) (ih _ _)
    · exact ih _ _

/-- If none of several packets is refused, the first one is not, nor is any other. -/
theorem sendAll_cons_of_accepted {t : Threshold} {b : Bytes}
    (all : (c.sendAll number ((t, b) :: ps)).length = ((t, b) :: ps).length) :
    ∃ (p : Posted) (d : Connection) (split : UInt16) (parts : List Bytes),
      c.sendAll number ((t, b) :: ps) = p :: d.sendAll (number + 1) ps ∧
      p.Cut c.nextSeq split parts ∧ p.body = encodeBody c.compression t.clamp b ∧
      d.nextSeq = c.nextSeq + 1 ∧ d.compression = c.compression ∧
      (d.sendAll (number + 1) ps).length = ps.length := by
  obtain ⟨d, heq, -⟩ | ⟨p, d, parts, heq, hcut, hbody, hseq, -, hsame⟩ := c.sendAll_cons number t b ps
  · have hle := d.length_sendAll_le (number + 1) ps
    rw [heq, List.length_cons] at all
    omega
  · rw [heq, List.length_cons, List.length_cons] at all
    exact ⟨p, d, _, parts, heq, hcut, hbody, hseq, hsame, Nat.succ.inj all⟩

end SendAll

end Connection
end Datagram
end EditionGateway
