import EditionGateway.Proofs.Datagram.Receiving

/-!
A link that may lose fragments, repeat them and change their order. A packet is put together from its
own parts only, as long as no part of another packet with the same split number meets it while it is
incomplete. `unmixed_of_few` and `unmixed_of_swept` say when this cannot happen; `mixed_packet` shows that
it can.
-/

namespace EditionGateway
namespace Datagram

def Posted.parts (p : Posted) : List Bytes := p.fragments.map (·.payload)

theorem Posted.Cut.parts_eq {p : Posted} {seq : UInt32} {split : UInt16} {parts : List Bytes}
    (h : p.Cut seq split parts) : p.parts = parts := by
  rw [Posted.parts, h.fragments, fragmentsOf, List.map_map]
  exact List.zipIdx_map_fst 0 parts

/-- The parts that have come are parts of one packet. -/
structure Split.OfParts (s : Split) (parts : List Bytes) : Prop where
  length : s.parts.length = parts.length
  part : ∀ (i : Nat) (b : Bytes), s.parts[i]? = some (some b) → parts[i]? = some b
  received : s.received = s.parts.countP Option.isSome

namespace Split.OfParts

variable {s : Split} {parts : List Bytes}

theorem empty (seq : UInt32) (parts : List Bytes) : (Split.empty seq parts.length).OfParts parts := by
  refine ⟨List.length_replicate, fun i b hb => ?_, isCounted_empty seq parts.length⟩
  have := List.eq_of_mem_replicate (List.mem_of_getElem? hb)
  cases this

theorem fill (h : s.OfParts parts) {i : Nat} {b : Bytes} (hb : parts[i]? = some b) :
    (s.fill i b).OfParts parts := by
  refine ⟨length_fill.trans h.length, fun j c hc => ?_, IsCounted.fill h.received⟩
  rw [getElem?_fill] at hc
  split at hc
  · next hij =>
    rw [hij.1, hb]
    exact Option.some.inj hc
  · exact h.part j c hc

/-- When as many parts have come as there are, it is the whole packet. -/
theorem body_eq (h : s.OfParts parts) (all : parts.length ≤ s.received) : s.body = parts.flatten := by
  obtain ⟨came, hcame, hbody⟩ := IsCounted.parts_eq h.received (Nat.le_trans (Nat.le_of_eq h.length) all)
  have hlen := h.length
  rw [hcame, List.length_map] at hlen
  have hsame : came = parts := by
    refine List.ext_getElem? fun i => ?_
    cases hi : came[i]? with
    | none =>
      have hle := List.getElem?_eq_none_iff.mp hi
      rw [List.getElem?_eq_none (Nat.le_trans (Nat.le_of_eq hlen.symm) hle)]
    | some b =>
      refine (h.part i b ?_).symm
      rw [hcame, List.getElem?_map, hi]
      rfl
  rw [hbody, hsame]

end Split.OfParts

/-- A copy of a fragment of a packet. -/
structure Copy where
  packet : Posted
  fragment : Fragment

/-- What the receiver has of the packets after these copies. -/
def reassembled (h : List Copy) : Reassembly := ({} : Reassembly).after (h.map (·.fragment))

/-- There is an incomplete packet of this number. -/
def Awaited (h : List Copy) (n : UInt16) : Prop := (reassembled h).splits.contains n = true

/-- Between parts of two packets with the same split number there is a time at which no packet of that
number is incomplete. -/
def Unmixed (xs : List Copy) : Prop :=
  ∀ h x k y t, xs = h ++ x :: (k ++ y :: t) → x.packet.isLong = true → y.packet.isLong = true →
    y.fragment.split = x.fragment.split → y.packet ≠ x.packet →
      ∃ k₁ k₂, k = k₁ ++ k₂ ∧ ¬ Awaited (h ++ x :: k₁) x.fragment.split

/-- Something is known of an incomplete packet: `x` is a part of it, and there has been an incomplete
packet of its number ever since `x` has come. -/
structure Traced (posted : List Posted) (h : List Copy) (x : Copy) (k : List Copy) (n : UInt16)
    (s : Split) : Prop where
  posted : x.packet ∈ posted
  long : x.packet.isLong = true
  split : x.fragment.split = n
  ofParts : s.OfParts x.packet.parts
  since : ∀ k₁ k₂, k = k₁ ++ k₂ → Awaited (h ++ x :: k₁) n

/-- Every incomplete packet is known in this way. -/
def Held (posted : List Posted) (h : List Copy) : Prop :=
  ∀ n s, (n, s) ∈ (reassembled h).splits → ∃ h₁ x h₂, h = h₁ ++ x :: h₂ ∧ Traced posted h₁ x h₂ n s

section Step

variable {posted : List Posted} {h h₁ h₂ : List Copy} {x y : Copy} {n : UInt16} {s : Split}

theorem reassembled_concat (h : List Copy) (y : Copy) :
    reassembled (h ++ [y]) = ((reassembled h).feed y.fragment).2 := by
  rw [reassembled, List.map_append, Reassembly.after_append]
  rfl

theorem awaited_of_mem (hs : (n, s) ∈ (reassembled h).splits) : Awaited h n := by
  rw [Awaited, Table.contains_iff]
  exact List.mem_map_of_mem (f := Prod.fst) hs

/-- What is known of an incomplete packet is so as long as one of its number is awaited. -/
theorem Traced.concat (ht : Traced posted h₁ x h₂ n s) {s' : Split} (hs' : s'.OfParts x.packet.parts)
    (hy : Awaited (h₁ ++ x :: (h₂ ++ [y])) n) : Traced posted h₁ x (h₂ ++ [y]) n s' := by
  refine ⟨ht.posted, ht.long, ht.split, hs', fun k₁ k₂ heq => ?_⟩
  rcases List.eq_nil_or_concat k₂ with rfl | ⟨k, z, rfl⟩
  · rw [List.append_nil] at heq
    rwa [← heq]
  · rw [List.concat_eq_append, ← List.append_assoc] at heq
    exact ht.since k₁ k (List.append_inj_left' heq rfl)

theorem Traced.start (hposted : y.packet ∈ posted) (hlong : y.packet.isLong = true)
    (hs : s.OfParts y.packet.parts) (hy : Awaited (h ++ [y]) y.fragment.split) :
    Traced posted h y [] y.fragment.split s := by
  refine ⟨hposted, hlong, rfl, hs, fun k₁ k₂ heq => ?_⟩
  rw [(List.nil_eq_append_iff.mp heq).1]
  exact hy

/-- Over a link that does not mix packets, a part meets parts of its own packet only. -/
theorem Traced.meets {t : List Copy} (ht : Traced posted h₁ x h₂ n s)
    (unmixed : Unmixed (h₁ ++ x :: (h₂ ++ y :: t))) (hlong : y.packet.isLong = true)
    (hn : y.fragment.split = n) : y.packet = x.packet := by
  apply Classical.byContradiction
  intro hne
  -- of two packets, the older one would have been gone at some time since `x`
  obtain ⟨k₁, k₂, heq, hfree⟩ := unmixed h₁ x h₂ y t rfl ht.long hlong (hn.trans ht.split.symm) hne
  rw [ht.split] at hfree
  exact hfree (ht.since k₁ k₂ heq)

/-- An incomplete packet that a part meets has been begun by a part of the same packet. -/
theorem Held.met {t : List Copy} (held : Held posted h) (unmixed : Unmixed (h ++ y :: t))
    (hlong : y.packet.isLong = true) (hs : (y.fragment.split, s) ∈ (reassembled h).splits) :
    ∃ h₁ x h₂, h = h₁ ++ x :: h₂ ∧ x.packet = y.packet ∧
      Traced posted h₁ x h₂ y.fragment.split s := by
  obtain ⟨h₁, x, h₂, rfl, ht⟩ := held _ s hs
  rw [List.append_assoc] at unmixed
  exact ⟨h₁, x, h₂, rfl, (ht.meets unmixed hlong rfl).symm, ht⟩

theorem Held.kept (held : Held posted h) (hs : (n, s) ∈ (reassembled h).splits)
    (hs' : (n, s) ∈ (reassembled (h ++ [y])).splits) :
    ∃ h₁ x h₂, h ++ [y] = h₁ ++ x :: h₂ ∧ Traced posted h₁ x h₂ n s := by
  obtain ⟨h₁, x, h₂, rfl, ht⟩ := held n s hs
  refine ⟨h₁, x, h₂ ++ [y], by simp, ht.concat ht.ofParts ?_⟩
  have := awaited_of_mem hs'
  rwa [List.append_assoc] at this

variable {seq : UInt32} {split : UInt16} {parts : List Bytes} {i : Nat} {t : List Copy}

/-- A part is put to parts of its own packet. -/
theorem Held.ofParts_fill (held : Held posted h) (unmixed : Unmixed (h ++ y :: t))
    (hcut : y.packet.Cut seq split parts) (hpart : y.fragment.IsPart seq split parts i)
    (hlong : y.packet.isLong = true)
    (came : (split, s) ∈ (reassembled h).splits ∨ s = .empty seq parts.length) :
    (s.fill i y.fragment.payload).OfParts parts := by
  refine Split.OfParts.fill ?_ hpart.payload
  rcases came with hs | rfl
  · rw [← hpart.split] at hs
    obtain ⟨h₁, x, h₂, rfl, hx, ht⟩ := held.met unmixed hlong hs
    rw [← hcut.parts_eq, ← hx]
    exact ht.ofParts
  · exact .empty seq parts

theorem Held.waits (held : Held posted h) (unmixed : Unmixed (h ++ y :: t)) (hposted : y.packet ∈ posted)
    (hcut : y.packet.Cut seq split parts) (hpart : y.fragment.IsPart seq split parts i)
    (hlong : y.packet.isLong = true)
    (came : (split, s) ∈ (reassembled h).splits ∨ s = .empty seq parts.length)
    (hs' : (split, s.fill i y.fragment.payload) ∈ (reassembled (h ++ [y])).splits) :
    ∃ h₁ x h₂, h ++ [y] = h₁ ++ x :: h₂ ∧
      Traced posted h₁ x h₂ split (s.fill i y.fragment.payload) := by
  have hof := held.ofParts_fill unmixed hcut hpart hlong came
  have hawaited := awaited_of_mem hs'
  rw [← hcut.parts_eq] at hof
  rcases came with hs | rfl
  · rw [← hpart.split] at hs
    obtain ⟨h₁, x, h₂, rfl, hx, ht⟩ := held.met unmixed hlong hs
    rw [hpart.split] at ht
    rw [List.append_assoc] at hawaited
    exact ⟨h₁, x, h₂ ++ [y], by simp, ht.concat (hx ▸ hof) hawaited⟩
  · rw [← hpart.split] at hawaited ⊢
    exact ⟨h, y, [], rfl, .start hposted hlong hof hawaited⟩

/-- What one copy does: all incomplete packets are known as before, and what is put into the inbox is the
packet that the copy is of. -/
theorem Held.next (held : Held posted h) (unmixed : Unmixed (h ++ y :: t)) (hposted : y.packet ∈ posted)
    (hcut : y.packet.Cut seq split parts) (hpart : y.fragment.IsPart seq split parts i) :
    Held posted (h ++ [y]) ∧
      ∀ b, ((reassembled h).feed y.fragment).1 = some (.ok b) → y.packet.body = b := by
  have hsplits : (reassembled (h ++ [y])).splits = ((reassembled h).accept y.fragment).2.splits := by
    rw [reassembled_concat, Reassembly.feed_splits]
  have hbody (b : Bytes) (hb : ((reassembled h).feed y.fragment).1 = some (.ok b)) :
      ∃ q, ((reassembled h).accept y.fragment).1 = .ok (some (q, b)) := Reassembly.accept_of_feed hb
  -- a packet in one fragment meets no other; a part of one does, or is the first of its packet
  by_cases hone : parts.length = 1
  · rw [Reassembly.accept_whole _ hpart hone] at hsplits hbody
    refine ⟨fun n s hs => held.kept (hsplits ▸ hs) hs, fun b hb => ?_⟩
    obtain ⟨q, hq⟩ := hbody b hb
    rw [← hcut.body]
    exact (Prod.mk.inj (Option.some.inj (Except.ok.inj hq))).2
  · have hmany : 1 < parts.length := by
      have := hcut.pos
      omega
    have hlong : y.packet.isLong = true := by rw [hcut.isLong, decide_eq_true hmany]
    have htakes := Reassembly.takes_part (reassembled h) hpart hmany
    generalize (reassembled h).accept y.fragment = res at hsplits hbody htakes
    cases htakes with
    | refuses m hsub =>
      refine ⟨fun n s hs => held.kept (hsub (hsplits ▸ hs)) hs, fun b hb => ?_⟩
      obtain ⟨q, hq⟩ := hbody b hb
      cases hq
    | waits came hlen hsub =>
      refine ⟨fun n s hs => ?_, fun b hb => ?_⟩
      · rcases List.mem_cons.mp (hsub (hsplits ▸ hs)) with heq | hold
        · obtain ⟨rfl, rfl⟩ := Prod.mk.inj heq
          exact held.waits unmixed hposted hcut hpart hlong came hs
        · exact held.kept hold hs
      · obtain ⟨q, hq⟩ := hbody b hb
        cases hq
    | completes came hlen hall hsub =>
      refine ⟨fun n s hs => held.kept (hsub (hsplits ▸ hs)) hs, fun b hb => ?_⟩
      obtain ⟨q, hq⟩ := hbody b hb
      have hof := held.ofParts_fill unmixed hcut hpart hlong came
      rw [← hcut.body, ← hof.body_eq hall]
      exact (Prod.mk.inj (Option.some.inj (Except.ok.inj hq))).2

end Step

/-- Each copy is one of a fragment of a packet that has been sent. -/
def Genuine (posted : List Posted) (xs : List Copy) : Prop :=
  ∀ x ∈ xs, x.packet ∈ posted ∧ x.fragment ∈ x.packet.fragments

theorem Held.after {posted : List Posted} (cut : ∀ p ∈ posted, ∃ seq split parts, p.Cut seq split parts)
    {h t : List Copy} (held : Held posted h) (genuine : Genuine posted t) (unmixed : Unmixed (h ++ t)) :
    Held posted (h ++ t) ∧ ∀ b, .ok b ∈ (reassembled h).yields (t.map (·.fragment)) →
      ∃ p ∈ posted, p.body = b := by
  induction t generalizing h with
  | nil => exact ⟨by rwa [List.append_nil], nofun⟩
  | cons y t ih =>
    obtain ⟨hposted, hfragment⟩ := genuine y List.mem_cons_self
    obtain ⟨seq, split, parts, hcut⟩ := cut y.packet hposted
    obtain ⟨i, hi⟩ := List.mem_iff_getElem?.mp hfragment
    obtain ⟨hnext, hbody⟩ := held.next unmixed hposted hcut (hcut.isPart hi)
    have hxs : h ++ y :: t = h ++ [y] ++ t := by simp
    rw [hxs] at unmixed ⊢
    obtain ⟨hall, hrest⟩ := ih hnext (fun x hx => genuine x (List.mem_cons_of_mem _ hx)) unmixed
    refine ⟨hall, fun b hb => ?_⟩
    rw [List.map_cons, Reassembly.yields, ← reassembled_concat, List.mem_append] at hb
    rcases hb with hb | hb
    · exact ⟨y.packet, hposted, hbody b (Option.mem_toList.mp hb)⟩
    · exact hrest b hb

/-- Two packets have the same split number only if there are `2 ^ 16` packets of several parts from one to
the other. -/
theorem unmixed_of_few {c : Connection} {ps : List (Threshold × Bytes)} {xs : List Copy}
    (genuine : Genuine (c.sendAll 0 ps) xs)
    (few : ((c.sendAll 0 ps).filter Posted.isLong).length ≤ UInt16.size) : Unmixed xs := by
  have split_eq (x : Copy) (hx : x ∈ xs) : x.fragment.split = x.packet.split := by
    obtain ⟨hposted, hfragment⟩ := genuine x hx
    obtain ⟨seq, split, parts, hcut⟩ := Connection.cut_of_mem hposted
    obtain ⟨i, hi⟩ := List.mem_iff_getElem?.mp hfragment
    rw [hcut.split_eq, (hcut.isPart hi).split]
  rintro h x k y t rfl hx hy heq hne
  have hxs : x ∈ h ++ x :: (k ++ y :: t) := by simp
  have hys : y ∈ h ++ x :: (k ++ y :: t) := by simp
  rw [split_eq y hys, split_eq x hxs] at heq
  exact absurd (Connection.eq_of_split few (genuine y hys).1 (genuine x hxs).1 hy hx heq) hne

/-- With `z` a packet begins, at a time when all that is incomplete under the number `n` is stale. -/
structure Sweeps (h : List Copy) (z : Copy) (n : UInt16) : Prop where
  long : z.packet.isLong = true
  begins : ¬ Awaited h z.fragment.split
  stale : ∀ s, (n, s) ∈ (reassembled h).splits → (reassembled h).isStale z.fragment.seq s = true

theorem Sweeps.not_awaited {h : List Copy} {z : Copy} {n : UInt16} (hz : Sweeps h z n) {seq : UInt32}
    {split : UInt16} {parts : List Bytes} {i : Nat} (hcut : z.packet.Cut seq split parts)
    (hpart : z.fragment.IsPart seq split parts i) (hne : n ≠ z.fragment.split) :
    ¬ Awaited (h ++ [z]) n := by
  have hlong : 1 < parts.length := by
    have := hz.long
    rwa [hcut.isLong, decide_eq_true_iff] at this
  have hnew : (reassembled h).splits.get? split = none := by
    have := hz.begins
    rwa [Awaited, Table.contains, Bool.not_eq_true, Option.isSome_eq_false_iff,
      Option.isNone_iff_eq_none, hpart.split] at this
  intro hawaited
  rw [Awaited, Table.contains_iff, reassembled_concat, Table.keys, Reassembly.feed_splits] at hawaited
  obtain ⟨⟨m, s⟩, hs, rfl⟩ := List.mem_map.mp hawaited
  have htakes := Reassembly.takes_new (reassembled h) hpart hlong hnew
  rcases htakes.mem_splits hs with heq | hold
  · exact hne (heq.trans hpart.split.symm)
  · obtain ⟨hmem, hfresh⟩ := List.mem_filter.mp hold
    have hstale := hz.stale s hmem
    rw [hpart.seq] at hstale
    simp [hstale] at hfresh

/-- Packets are not mixed over a link on which, before a split number comes again, another packet begins
that finds what is left of the first one stale. -/
theorem unmixed_of_swept {posted : List Posted} {xs : List Copy}
    (cut : ∀ p ∈ posted, ∃ seq split parts, p.Cut seq split parts) (genuine : Genuine posted xs)
    (swept : ∀ h x k y t, xs = h ++ x :: (k ++ y :: t) → x.packet.isLong = true →
      y.packet.isLong = true → y.fragment.split = x.fragment.split → y.packet ≠ x.packet →
        ∃ k₁ z k₂, k = k₁ ++ z :: k₂ ∧ Sweeps (h ++ x :: k₁) z x.fragment.split) :
    Unmixed xs := by
  rintro h x k y t rfl hx hy hsame hne
  obtain ⟨k₁, z, k₂, rfl, hz⟩ := swept h x k y t rfl hx hy hsame hne
  -- what is left of the packet of `x` is gone when `z` comes, or with it
  by_cases hawaited : Awaited (h ++ x :: k₁) x.fragment.split
  · obtain ⟨hposted, hfragment⟩ := genuine z (by simp)
    obtain ⟨seq, split, parts, hcut⟩ := cut z.packet hposted
    obtain ⟨i, hi⟩ := List.mem_iff_getElem?.mp hfragment
    have hother : x.fragment.split ≠ z.fragment.split := fun heq => hz.begins (heq ▸ hawaited)
    have hgone := hz.not_awaited hcut (hcut.isPart hi) hother
    refine ⟨k₁ ++ [z], k₂, by simp, ?_⟩
    rwa [List.append_assoc] at hgone
  · exact ⟨k₁, z :: k₂, rfl, hawaited⟩

/-- A sender with the least size there is. -/
def smallSender (seq : UInt32) (split : UInt16) : Connection :=
  { id := ⟨2⟩, address := "b", mtu := 576, nextSplit := split, nextSeq := seq }

section SmallSender

variable {u v : Bytes} (hu : u.length = 537) (hv : v ≠ []) (hle : v.length ≤ 537)
include hu hv hle

theorem send_of_two (seq : UInt32) (split : UInt16) : (smallSender seq split).send (u ++ v) =
    (.ok (fragmentsOf seq split [u, v]), smallSender (seq + 1) (split + 1)) := by
  have hpos : 0 < v.length := List.length_pos_iff.mpr hv
  have hchunks : chunks 537 (u ++ v) = [u, v] := chunks_append (by decide) hu hv hle
  rw [← hchunks]
  refine Connection.send_of_long rfl ?_ ?_
  · show 537 < (u ++ v).length
    rw [List.length_append]
    omega
  · show (chunks 537 (u ++ v)).length ≤ maxFragments
    rw [hchunks]
    exact Nat.le_of_ble_eq_true rfl

theorem sendAll_of_two (seq : UInt32) (split : UInt16) (number : Nat) (ps : List (Threshold × Bytes)) :
    (smallSender seq split).sendAll number ((none, u ++ v) :: ps) =
      ⟨number, u ++ v, fragmentsOf seq split [u, v]⟩ ::
        (smallSender (seq + 1) (split + 1)).sendAll (number + 1) ps := by
  have hsend := send_of_two hu hv hle seq split
  have hsame : (smallSender seq split).setThreshold none = smallSender seq split := rfl
  rw [Connection.sendAll, hsame, hsend]
  rfl

theorem sendAll_of_many (seq : UInt32) (split : UInt16) (number k : Nat) (ps : List (Threshold × Bytes)) :
    ∃ posted, (smallSender seq split).sendAll number (List.replicate k (none, u ++ v) ++ ps) =
      posted ++
        (smallSender (seq + UInt32.ofNat k) (split + UInt16.ofNat k)).sendAll (number + k) ps := by
  induction k generalizing seq split number with
  | zero => exact ⟨[], by simp⟩
  | succ k ih =>
    obtain ⟨posted, hposted⟩ := ih (seq + 1) (split + 1) (number + 1)
    refine ⟨⟨number, u ++ v, fragmentsOf seq split [u, v]⟩ :: posted, ?_⟩
    have hseq : seq + UInt32.ofNat (k + 1) = seq + 1 + UInt32.ofNat k := by
      rw [UInt32.ofNat_add, UInt32.add_comm (UInt32.ofNat k), UInt32.add_assoc]
      rfl
    have hsplit : split + UInt16.ofNat (k + 1) = split + 1 + UInt16.ofNat k := by
      rw [UInt16.ofNat_add, UInt16.add_comm (UInt16.ofNat k), UInt16.add_assoc]
      rfl
    have hnumber : number + (k + 1) = number + 1 + k := by omega
    rw [List.replicate_succ, List.cons_append, sendAll_of_two hu hv hle, hposted, hseq, hsplit, hnumber]
    rfl

theorem mem_sendAll_first (k : Nat) (ps : List (Threshold × Bytes)) :
    (⟨0, u ++ v, fragmentsOf 0 0 [u, v]⟩ : Posted) ∈
      (smallSender 0 0).sendAll 0 (List.replicate (k + 1) (none, u ++ v) ++ ps) := by
  rw [List.replicate_succ, List.cons_append, sendAll_of_two hu hv hle]
  exact List.mem_cons_self

theorem mem_sendAll_last (k : Nat) {u' v' : Bytes} (hu' : u'.length = 537) (hv' : v' ≠ [])
    (hle' : v'.length ≤ 537) :
    (⟨k, u' ++ v', fragmentsOf (UInt32.ofNat k) (UInt16.ofNat k) [u', v']⟩ : Posted) ∈
      (smallSender 0 0).sendAll 0 (List.replicate k (none, u ++ v) ++ [(none, u' ++ v')]) := by
  obtain ⟨posted, hposted⟩ := sendAll_of_many hu hv hle 0 0 0 k [(none, u' ++ v')]
  rw [sendAll_of_two hu' hv' hle', UInt32.zero_add, UInt16.zero_add, Nat.zero_add] at hposted
  rw [hposted]
  exact List.mem_append_right _ List.mem_cons_self

end SmallSender

/-- The first part of one packet and the last part of another one of the same number are joined. -/
theorem yields_of_two (seq seq' : UInt32) (u v : Bytes) :
    ({} : Reassembly).yields [⟨seq, 0, 0, 2, u⟩, ⟨seq', 0, 1, 2, v⟩] = [.ok (u ++ v)] := by
  have hbody : u ++ v = u ++ (v ++ []) := by rw [List.append_nil]
  rw [hbody]
  rfl

namespace Endpoint

variable {a : Address} {id : ConnectionId} {e : Endpoint}

/-- Whatever the network does to the fragments, only packets that have been sent are put into the inbox,
and nothing is joined that does not belong together, over a link that does not mix packets. -/
theorem puts_only_sent (he : e.Tends a id {}) (c : Connection) (ps : List (Threshold × Bytes))
    (h : List Turn) (xs : List Copy) (come : arrivals h = xs.map (·.fragment))
    (genuine : Genuine (c.sendAll 0 ps) xs) (unmixed : Unmixed xs) :
    (∀ b, .ok b ∈ e.gains a id h → ∃ p ∈ c.sendAll 0 ps, p.body = b) ∧
      ∀ peer n s, (e.afterTurns a id h).peers.get? a = some peer →
        (n, s) ∈ peer.reassembly.splits → ∃ p ∈ c.sendAll 0 ps, s.OfParts p.parts := by
  have start : Held (c.sendAll 0 ps) [] := fun n s hs => absurd hs List.not_mem_nil
  obtain ⟨hheld, hbodies⟩ := start.after (fun p => Connection.cut_of_mem) genuine unmixed
  refine ⟨fun b hb => hbodies b ?_, fun peer n s hpeer hs => ?_⟩
  · have := he.mem_yields hb
    rwa [come] at this
  · obtain ⟨p, hp, -, hr⟩ := (he.afterTurns h).peer
    rw [come] at hr
    obtain rfl := Option.some.inj (hpeer.symm.trans hp)
    rw [hr] at hs
    obtain ⟨h₁, x, h₂, -, ht⟩ := hheld n s hs
    exact ⟨x.packet, ht.posted, ht.ofParts⟩

/-- The parts of a packet come in the wrong order, one of them twice, and another packet is lost. -/
theorem puts_only_sent_one :
    let e := (listen 0 defaultMtu).after [knock "a", .accept]
    let c := smallSender 0 0xffff
    let u : Bytes := List.replicate 537 1
    let ps : List (Threshold × Bytes) := [(none, u ++ [2]), (none, u ++ [3])]
    let p : Posted := ⟨0, u ++ [2], fragmentsOf 0 0xffff [u, [2]]⟩
    let xs : List Copy :=
      [⟨p, 0, 0xffff, 1, 2, [2]⟩, ⟨p, 0, 0xffff, 1, 2, [2]⟩, ⟨p, 0, 0xffff, 0, 2, u⟩]
    let h := eagerly (xs.map (·.fragment))
    e.Tends "a" ⟨1⟩ {} ∧ arrivals h = xs.map (·.fragment) ∧ Genuine (c.sendAll 0 ps) xs ∧ Unmixed xs ∧
      e.gains "a" ⟨1⟩ h = [.ok (u ++ [2])] ∧
      ∀ b, .ok b ∈ e.gains "a" ⟨1⟩ h → ∃ p ∈ c.sendAll 0 ps, p.body = b := by
  intro e c u ps p xs h
  have he : e.Tends "a" ⟨1⟩ {} := ⟨rfl, ⟨_, rfl, rfl, rfl⟩, _, rfl⟩
  have hu : u.length = 537 := List.length_replicate
  have hsend : c.sendAll 0 ps = [p, ⟨1, u ++ [3], fragmentsOf 1 0 [u, [3]]⟩] := by
    have hsecond := sendAll_of_two hu (List.cons_ne_nil 3 []) (by decide) 1 0 1 []
    exact (sendAll_of_two hu (List.cons_ne_nil 2 []) (by decide) 0 0xffff 0 _).trans
      (congrArg (p :: ·) hsecond)
  have genuine : Genuine (c.sendAll 0 ps) xs := by
    intro x hx
    rw [hsend]
    simp only [xs, List.mem_cons, List.not_mem_nil, or_false] at hx
    rcases hx with rfl | rfl | rfl
    · exact ⟨List.mem_cons_self, List.mem_cons_of_mem _ List.mem_cons_self⟩
    · exact ⟨List.mem_cons_self, List.mem_cons_of_mem _ List.mem_cons_self⟩
    · exact ⟨List.mem_cons_self, List.mem_cons_self⟩
  have few : ((c.sendAll 0 ps).filter Posted.isLong).length ≤ UInt16.size := by
    refine Nat.le_trans (List.length_filter_le _ _) ?_
    rw [hsend]
    decide
  have unmixed : Unmixed xs := unmixed_of_few genuine few
  have come : arrivals h = xs.map (·.fragment) := arrivals_eagerly _
  have room : e.Drained "a" ⟨1⟩ h := he.drained_eagerly rfl _
  refine ⟨he, come, genuine, unmixed, ?_, (puts_only_sent he c ps h xs come genuine unmixed).1⟩
  rw [he.gains_of_drained room, come]
  rfl

/-- When the split numbers have all been used, the last part of a packet is joined to the first part of
another one, that had been left incomplete. -/
theorem mixed_packet :
    let e := (listen 0 defaultMtu).after [knock "a", .accept]
    let c := smallSender 0 0
    ∃ (ps : List (Threshold × Bytes)) (h : List Turn) (xs : List Copy),
      ps.length = UInt16.size + 1 ∧ arrivals h = xs.map (·.fragment) ∧ Genuine (c.sendAll 0 ps) xs ∧
        ∃ b, .ok b ∈ e.gains "a" ⟨1⟩ h ∧ ∀ p ∈ c.sendAll 0 ps, p.body ≠ b := by
  intro e c
  have he : e.Tends "a" ⟨1⟩ {} := ⟨rfl, ⟨_, rfl, rfl, rfl⟩, _, rfl⟩
  obtain ⟨u, hu⟩ : ∃ u : Bytes, u = List.replicate 537 0 := ⟨_, rfl⟩
  obtain ⟨v, hv⟩ : ∃ v : Bytes, v = List.replicate 537 1 := ⟨_, rfl⟩
  have hulen : u.length = 537 := by rw [hu, List.length_replicate]
  have hvlen : v.length = 537 := by rw [hv, List.length_replicate]
  have hone : ([1] : Bytes).length ≤ 537 := by decide
  have hzero : ([0] : Bytes).length ≤ 537 := by decide
  let p : Posted := ⟨0, u ++ [0], fragmentsOf 0 0 [u, [0]]⟩
  let q : Posted := ⟨UInt16.size, v ++ [1], fragmentsOf 65536 0 [v, [1]]⟩
  let ps : List (Threshold × Bytes) := List.replicate UInt16.size (none, u ++ [0]) ++ [(none, v ++ [1])]
  let xs : List Copy := [⟨p, 0, 0, 0, 2, u⟩, ⟨q, 65536, 0, 1, 2, [1]⟩]
  have hp : p ∈ c.sendAll 0 ps := mem_sendAll_first hulen (List.cons_ne_nil 0 []) hzero 65535 _
  have hq : q ∈ c.sendAll 0 ps :=
    mem_sendAll_last hulen (List.cons_ne_nil 0 []) hzero UInt16.size hvlen (List.cons_ne_nil 1 []) hone
  have room : e.Drained "a" ⟨1⟩ (eagerly (xs.map (·.fragment))) := he.drained_eagerly rfl _
  refine ⟨ps, eagerly (xs.map (·.fragment)), xs, ?_, arrivals_eagerly _, ?_, u ++ [1], ?_, ?_⟩
  · rw [List.length_append, List.length_replicate]
    rfl
  · intro x hx
    simp only [xs, List.mem_cons, List.not_mem_nil, or_false] at hx
    rcases hx with rfl | rfl
    · exact ⟨hp, List.mem_cons_self⟩
    · exact ⟨hq, List.mem_cons_of_mem _ List.mem_cons_self⟩
  · rw [he.gains_of_drained room, arrivals_eagerly]
    exact yields_of_two 0 65536 u [1] ▸ List.mem_singleton_self _
  · intro r hr hbody
    obtain ⟨t, b, hb, hr⟩ := Connection.body_of_mem hr
    rw [hbody] at hr
    rcases List.mem_append.mp hb with hb | hb
    · obtain ⟨-, hb⟩ := List.mem_replicate.mp hb
      obtain ⟨rfl, rfl⟩ := Prod.mk.inj hb
      exact absurd (List.append_cancel_left hr) (by decide)
    · obtain ⟨rfl, rfl⟩ := Prod.mk.inj (List.mem_singleton.mp hb)
      have huv : u = v := List.append_cancel_right hr
      rw [hu, hv] at huv
      exact absurd (congrArg List.head? huv) (by decide)

end Endpoint
end Datagram
end EditionGateway
