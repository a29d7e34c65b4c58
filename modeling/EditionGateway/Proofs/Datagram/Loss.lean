import EditionGateway.Proofs.Datagram.Mingling
import EditionGateway.Proofs.Datagram.Torn

/-!
A link that loses fragments, and does nothing else to them. Packets of which some parts are lost stay
incomplete until they are stale. Nothing that comes is an error as long as fewer than `maxPendingSplits` of
them are left when another packet of several parts begins (`fails_iff_crowded`).
-/

namespace EditionGateway
namespace Datagram

/-- A packet, and those of its fragments that are not lost. -/
structure Crossing where
  packet : Posted
  came : List Fragment
  sublist : came.Sublist packet.fragments

namespace Crossing

def IsWhole (x : Crossing) : Prop := x.came = x.packet.fragments

/-- Some of it has come, but not all. -/
def IsTorn (x : Crossing) : Prop := x.came ≠ [] ∧ x.came ≠ x.packet.fragments

/-- Its first fragment to come is one of several parts. -/
def Begins (x : Crossing) : Prop := x.packet.isLong = true ∧ x.came ≠ []

end Crossing

/-- An incomplete packet of this sequence number is given up when `z` begins: a later packet has come as a
whole, or it is too far behind `z`. -/
def Stale (sent : List Crossing) (seq : UInt32) (z : Crossing) : Prop :=
  (∃ w ∈ sent, w.IsWhole ∧ seq ≤ w.packet.seq) ∨ splitWindow < z.packet.seq.toNat - seq.toNat

/-- It is incomplete, and has not been given up for a packet that has begun since. -/
def Left (sent : List Crossing) (x : Crossing) : Prop :=
  ∃ h k, sent = h ++ x :: k ∧ x.IsTorn ∧
    ∀ k₁ z k₂, k = k₁ ++ z :: k₂ → z.Begins → ¬ Stale (h ++ x :: k₁) x.packet.seq z

/-- A packet begins while as many as there may be are incomplete and not given up for it. -/
def Crowds (sent : List Crossing) (z : Crossing) : Prop :=
  z.Begins ∧ ∃ xs : List Crossing, xs.Nodup ∧ xs.length = maxPendingSplits ∧
    ∀ x ∈ xs, Left sent x ∧ ¬ Stale sent x.packet.seq z

def Crowded (xs : List Crossing) : Prop := ∃ h z k, xs = h ++ z :: k ∧ Crowds h z

/-- No packet begins with the split number of one that is incomplete. -/
def Apart (xs : List Crossing) : Prop :=
  ∀ h z k, xs = h ++ z :: k → z.Begins → ∀ x, Left h x → x.packet.split ≠ z.packet.split

section Left

variable {sent : List Crossing} {x z : Crossing}

theorem Left.mem (h : Left sent x) : x ∈ sent := by
  obtain ⟨h, k, rfl, -⟩ := h
  exact List.mem_append_right _ List.mem_cons_self

/-- What stands before the last packet stands anywhere. -/
theorem split_of_concat {h k : List Crossing} (heq : sent ++ [z] = h ++ x :: k) :
    (k = [] ∧ sent = h ∧ x = z) ∨ ∃ k', k = k' ++ [z] ∧ sent = h ++ x :: k' := by
  rcases List.eq_nil_or_concat k with rfl | ⟨k', y, rfl⟩
  · obtain ⟨rfl, hlast⟩ := List.append_inj' heq rfl
    exact .inl ⟨rfl, rfl, (List.cons.inj hlast).1.symm⟩
  · rw [List.concat_eq_append, ← List.cons_append, ← List.append_assoc] at heq
    obtain ⟨rfl, hlast⟩ := List.append_inj' heq rfl
    cases hlast
    exact .inr ⟨k', List.concat_eq_append, rfl⟩

theorem left_concat : Left (sent ++ [z]) x ↔
    (Left sent x ∧ (z.Begins → ¬ Stale sent x.packet.seq z)) ∨ x = z ∧ z.IsTorn := by
  constructor
  · rintro ⟨h, k, heq, htorn, hk⟩
    rcases split_of_concat heq with ⟨-, -, rfl⟩ | ⟨k, rfl, rfl⟩
    · exact .inr ⟨rfl, htorn⟩
    · refine .inl ⟨⟨h, k, rfl, htorn, fun k₁ y k₂ hsplit => hk k₁ y (k₂ ++ [z]) ?_⟩, hk k z [] rfl⟩
      rw [hsplit, List.append_assoc, List.cons_append]
  · rintro (⟨⟨h, k, rfl, htorn, hk⟩, hz⟩ | ⟨rfl, htorn⟩)
    · refine ⟨h, k ++ [z], List.append_assoc .., htorn, fun k₁ y k₂ hsplit => ?_⟩
      rcases split_of_concat hsplit with ⟨-, rfl, rfl⟩ | ⟨k₂, -, hsplit⟩
      · exact hz
      · exact hk k₁ y k₂ hsplit
    · exact ⟨sent, [], rfl, htorn, fun k₁ y k₂ heq => absurd heq (by simp)⟩

end Left

/-- The packets of which the receiver keeps parts are those of which `P` holds. -/
def Keeps (splits : Table UInt16 Split) (P : Crossing → Prop) : Prop :=
  ∃ xs : List Crossing, xs.Nodup ∧ (∀ x, x ∈ xs ↔ P x) ∧
    splits.map (fun e => (e.1, e.2.seq)) = xs.map fun x => (x.packet.split, x.packet.seq)

namespace Keeps

variable {splits : Table UInt16 Split} {P Q : Crossing → Prop}

theorem congr (h : Keeps splits P) (same : ∀ x, P x ↔ Q x) : Keeps splits Q := by
  obtain ⟨xs, hnodup, hmem, hsplits⟩ := h
  exact ⟨xs, hnodup, fun x => (hmem x).trans (same x), hsplits⟩

theorem concat (h : Keeps splits P) {z : Crossing} (hz : ¬ P z) {s : Split} (hs : s.seq = z.packet.seq) :
    Keeps (splits ++ [(z.packet.split, s)]) fun x => P x ∨ x = z := by
  obtain ⟨xs, hnodup, hmem, hsplits⟩ := h
  refine ⟨xs ++ [z], ?_, fun x => ?_, ?_⟩
  · refine List.nodup_append.mpr ⟨hnodup, by simp, fun x hx y hy heq => hz ?_⟩
    rw [← List.mem_singleton.mp hy, ← heq]
    exact (hmem x).mp hx
  · rw [List.mem_append, hmem, List.mem_singleton]
  · rw [List.map_append, hsplits, List.map_append, List.map_singleton, List.map_singleton, hs]

/-- Some are given up, by their sequence numbers. -/
theorem filter (h : Keeps splits P) {f : Split → Bool} {G : UInt32 → Prop}
    (hf : ∀ s, f s = true ↔ G s.seq) :
    Keeps (splits.filter fun e => ¬ f e.2) fun x => P x ∧ ¬ G x.packet.seq := by
  classical
  obtain ⟨xs, hnodup, hmem, hsplits⟩ := h
  let kept : UInt16 × UInt32 → Bool := fun e => decide (¬ G e.2)
  have hkept : (splits.filter fun e => ¬ f e.2) = List.filter (kept ∘ fun e => (e.1, e.2.seq)) splits :=
    List.filter_congr fun e _ => by simp [kept, hf]
  refine ⟨xs.filter (kept ∘ fun x => (x.packet.split, x.packet.seq)), ?_, fun x => ?_, ?_⟩
  · exact hnodup.sublist List.filter_sublist
  · rw [List.mem_filter, hmem]
    simp [kept]
  · rw [hkept, ← List.filter_map, hsplits, List.filter_map]

end Keeps

/-- What the receiver knows when these packets have crossed the link. -/
structure Mirrors (sent : List Crossing) (r : Reassembly) : Prop where
  splits : Keeps r.splits (Left sent)
  delivered : ∀ seq, r.lastDelivered.any (seq ≤ ·) = true ↔ ∃ w ∈ sent, w.IsWhole ∧ seq ≤ w.packet.seq

namespace Mirrors

variable {sent : List Crossing} {r : Reassembly} {z : Crossing}

theorem start : Mirrors [] {} := by
  refine ⟨⟨[], List.nodup_nil, fun x => ⟨nofun, fun hx => absurd hx.mem List.not_mem_nil⟩, rfl⟩,
    fun seq => ⟨nofun, fun ⟨w, hw, _⟩ => absurd hw List.not_mem_nil⟩⟩

theorem isStale_iff (h : Mirrors sent r) (s : Split) :
    r.isStale z.packet.seq s = true ↔ Stale sent s.seq z := by
  have hany : r.isStale z.packet.seq s = (r.lastDelivered.any (s.seq ≤ ·) ||
      decide (splitWindow < z.packet.seq.toNat - s.seq.toNat)) := by
    unfold Reassembly.isStale
    cases r.lastDelivered <;> rfl
  rw [hany, Bool.or_eq_true, h.delivered, decide_eq_true_iff]
  rfl

/-- What is not stale yet. -/
theorem evict (h : Mirrors sent r) (z : Crossing) :
    Keeps (r.evictStale z.packet.seq).splits fun x => Left sent x ∧ ¬ Stale sent x.packet.seq z :=
  h.splits.filter (G := (Stale sent · z)) h.isStale_iff

/-- There is no room for another packet. -/
theorem full_iff (h : Mirrors sent r) (hz : z.Begins) :
    maxPendingSplits ≤ (r.evictStale z.packet.seq).splits.length ↔ Crowds sent z := by
  obtain ⟨xs, hnodup, hmem, hsplits⟩ := h.evict z
  have hlength : (r.evictStale z.packet.seq).splits.length = xs.length := by
    rw [← List.length_map, hsplits, List.length_map]
  rw [hlength]
  constructor
  · intro hfull
    refine ⟨hz, xs.take maxPendingSplits, ?_, ?_, fun x hx => (hmem x).mp (List.mem_of_mem_take hx)⟩
    · exact hnodup.sublist (List.take_sublist _ _)
    · rw [List.length_take, Nat.min_eq_left hfull]
  · rintro ⟨-, ys, hys, hlen, hleft⟩
    rw [← hlen]
    exact hys.length_le_of_subset fun x hx => (hmem x).mpr (hleft x hx)

theorem delivered_other (h : Mirrors sent r) (hz : ¬ z.IsWhole) (seq : UInt32) :
    r.lastDelivered.any (seq ≤ ·) = true ↔ ∃ w ∈ sent ++ [z], w.IsWhole ∧ seq ≤ w.packet.seq := by
  rw [h.delivered]
  constructor
  · rintro ⟨w, hw, hwhole⟩
    exact ⟨w, List.mem_append_left _ hw, hwhole⟩
  · rintro ⟨w, hw, hwhole⟩
    rcases List.mem_append.mp hw with hw | hw
    · exact ⟨w, hw, hwhole⟩
    · obtain rfl := List.mem_singleton.mp hw
      exact absurd hwhole.1 hz

/-- The last packet that is delivered is the latest of those that have come as a whole. -/
theorem delivered_whole (h : Mirrors sent r) (hz : z.IsWhole) (seq : UInt32) :
    (if r.lastDelivered.all (· < z.packet.seq) then some z.packet.seq else r.lastDelivered).any (seq ≤ ·) =
      true ↔ ∃ w ∈ sent ++ [z], w.IsWhole ∧ seq ≤ w.packet.seq := by
  have hlatest : (if r.lastDelivered.all (· < z.packet.seq) then some z.packet.seq
      else r.lastDelivered).any (seq ≤ ·) = true ↔
      r.lastDelivered.any (seq ≤ ·) = true ∨ seq ≤ z.packet.seq := by
    cases r.lastDelivered with
    | none => simp
    | some last =>
      simp only [Option.all_some, Option.any_some, decide_eq_true_eq, UInt32.le_iff_toNat_le,
        UInt32.lt_iff_toNat_lt]
      split <;> simp only [Option.any_some, decide_eq_true_eq] <;> omega
  rw [hlatest, h.delivered]
  constructor
  · rintro (⟨w, hw, hwhole⟩ | hle)
    · exact ⟨w, List.mem_append_left _ hw, hwhole⟩
    · exact ⟨z, List.mem_append_right _ (List.mem_singleton_self z), hz, hle⟩
  · rintro ⟨w, hw, hwhole, hle⟩
    rcases List.mem_append.mp hw with hw | hw
    · exact .inl ⟨w, hw, hwhole, hle⟩
    · rw [List.mem_singleton.mp hw] at hle
      exact .inr hle

/-- A packet that does not begin leaves those that are incomplete as they are. -/
theorem splits_still (h : Mirrors sent r) (hbegins : ¬ z.Begins) (htorn : ¬ z.IsTorn) :
    Keeps r.splits (Left (sent ++ [z])) := by
  refine h.splits.congr fun x => ?_
  rw [left_concat]
  simp [hbegins, htorn]

/-- A packet that begins stays where what is stale has been. -/
theorem splits_torn (h : Mirrors sent r) (hbegins : z.Begins) (htorn : z.IsTorn) (hnew : z ∉ sent)
    {s : Split} (hs : s.seq = z.packet.seq) :
    Keeps ((r.evictStale z.packet.seq).splits ++ [(z.packet.split, s)]) (Left (sent ++ [z])) := by
  refine ((h.evict z).concat (fun hz => hnew hz.1.mem) hs).congr fun x => ?_
  rw [left_concat]
  simp [hbegins, htorn]

theorem splits_whole (h : Mirrors sent r) (hbegins : z.Begins) (hwhole : z.IsWhole) :
    Keeps (r.evictStale z.packet.seq).splits (Left (sent ++ [z])) := by
  have htorn : ¬ z.IsTorn := fun htorn => htorn.2 hwhole
  refine (h.evict z).congr fun x => ?_
  rw [left_concat]
  simp [hbegins, htorn]

theorem absent (h : Mirrors sent r) (apart : ∀ x, Left sent x → x.packet.split ≠ z.packet.split) :
    r.splits.get? z.packet.split = none := by
  obtain ⟨xs, -, hmem, hsplits⟩ := h.splits
  cases hs : r.splits.get? z.packet.split with
  | none => rfl
  | some s =>
    have hproj : (z.packet.split, s.seq) ∈ r.splits.map fun e => (e.1, e.2.seq) :=
      List.mem_map.mpr ⟨_, Table.mem_of_get? hs, rfl⟩
    rw [hsplits] at hproj
    obtain ⟨x, hx, heq⟩ := List.mem_map.mp hproj
    exact absurd (Prod.mk.inj heq).1 (apart x ((hmem x).mp hx))

section Next

variable {seq : UInt32} {split : UInt16} {parts : List Bytes}

/-- A packet of one fragment comes, or nothing of a packet does. -/
theorem next_still (h : Mirrors sent r) (hcut : z.packet.Cut seq split parts)
    (hstill : z.came = [] ∨ parts.length = 1) :
    ¬ z.Begins ∧ (∀ err, .error err ∉ r.yields z.came) ∧ Mirrors (sent ++ [z]) (r.after z.came) := by
  by_cases hlost : z.came = []
  · have hbegins : ¬ z.Begins := fun hz => hz.2 hlost
    have htorn : ¬ z.IsTorn := fun hz => hz.1 hlost
    have hwhole : ¬ z.IsWhole := fun hz => hcut.fragments_ne_nil (hz.symm.trans hlost)
    rw [hlost]
    exact ⟨hbegins, nofun, h.splits_still hbegins htorn, h.delivered_other hwhole⟩
  · have hone : parts.length = 1 := hstill.resolve_left hlost
    have hwhole : z.IsWhole := by
      refine z.sublist.eq_of_length_le ?_
      rw [hcut.length_fragments, hone]
      exact List.length_pos_iff.mpr hlost
    have hbegins : ¬ z.Begins := fun hz => by
      have := hz.1
      rw [hcut.isLong, hone] at this
      cases this
    obtain ⟨hyields, hafter⟩ := Reassembly.after_single r hcut hone
    rw [hwhole]
    refine ⟨hbegins, hyields, ?_⟩
    rw [hafter, ← hcut.seq_eq]
    exact ⟨h.splits_still hbegins fun hz => hz.2 hwhole, h.delivered_whole hwhole⟩

/-- A packet of several parts begins, if there is room for it. -/
theorem next_begun (h : Mirrors sent r) (hcut : z.packet.Cut seq split parts) (hbegins : z.Begins)
    (hnew : z ∉ sent) (apart : ∀ x, Left sent x → x.packet.split ≠ z.packet.split) :
    (Crowds sent z ∧ ∃ err, .error err ∈ r.yields z.came) ∨
      ¬ Crowds sent z ∧ (∀ err, .error err ∉ r.yields z.came) ∧
        Mirrors (sent ++ [z]) (r.after z.came) := by
  have hlong : 1 < parts.length := by
    have := hbegins.1
    rwa [hcut.isLong, decide_eq_true_iff] at this
  have habsent := h.absent apart
  rw [hcut.split_eq] at habsent
  have hsome := Reassembly.after_some r hcut hlong habsent z.sublist hbegins.2
  rw [← hcut.seq_eq, ← hcut.split_eq] at hsome
  by_cases hfull : Crowds sent z
  · rw [if_pos ((h.full_iff hbegins).mpr hfull)] at hsome
    exact .inl ⟨hfull, _, hsome⟩
  · rw [if_neg (mt (h.full_iff hbegins).mp hfull)] at hsome
    obtain ⟨hyields, hafter⟩ := hsome
    refine .inr ⟨hfull, hyields, ?_⟩
    split at hafter
    · next hwhole =>
      rw [hafter]
      exact ⟨h.splits_whole hbegins hwhole, h.delivered_whole hwhole⟩
    · next htorn =>
      obtain ⟨s, hs, hafter⟩ := hafter
      rw [hafter]
      exact ⟨h.splits_torn hbegins ⟨hbegins.2, htorn⟩ hnew hs, h.delivered_other htorn⟩

theorem next (h : Mirrors sent r) (hcut : z.packet.Cut seq split parts) (hnew : z ∉ sent)
    (apart : z.Begins → ∀ x, Left sent x → x.packet.split ≠ z.packet.split) :
    (Crowds sent z ∧ ∃ err, .error err ∈ r.yields z.came) ∨
      ¬ Crowds sent z ∧ (∀ err, .error err ∉ r.yields z.came) ∧
        Mirrors (sent ++ [z]) (r.after z.came) := by
  by_cases hbegins : z.Begins
  · exact h.next_begun hcut hbegins hnew (apart hbegins)
  · have hstill : z.came = [] ∨ parts.length = 1 := by
      by_cases hlost : z.came = []
      · exact .inl hlost
      · have hpos := hcut.pos
        have hshort : ¬ 1 < parts.length := fun hlong =>
          hbegins ⟨by rw [hcut.isLong, decide_eq_true_iff]; exact hlong, hlost⟩
        exact .inr (by omega)
    obtain ⟨-, hyields, hnext⟩ := h.next_still hcut hstill
    exact .inr ⟨fun hz => hbegins hz.1, hyields, hnext⟩

end Next

/-- From a state that mirrors what has been sent, there is an error if and only if a packet comes into a
crowd. -/
theorem fails_iff (h : Mirrors sent r) {xs : List Crossing}
    (cut : ∀ x ∈ xs, ∃ seq split parts, x.packet.Cut seq split parts) (distinct : (sent ++ xs).Nodup)
    (apart : ∀ k z t, xs = k ++ z :: t → z.Begins →
      ∀ x, Left (sent ++ k) x → x.packet.split ≠ z.packet.split) :
    (∃ err, .error err ∈ r.yields (xs.flatMap (·.came))) ↔
      ∃ k z t, xs = k ++ z :: t ∧ Crowds (sent ++ k) z := by
  induction xs generalizing sent r with
  | nil => exact ⟨nofun, fun ⟨k, z, t, heq, _⟩ => absurd heq (by simp)⟩
  | cons z xs ih =>
    obtain ⟨seq, split, parts, hcut⟩ := cut z List.mem_cons_self
    have hnew : z ∉ sent := fun hz => (List.nodup_append.mp distinct).2.2 z hz z List.mem_cons_self rfl
    have hapart := apart [] z xs rfl
    rw [List.append_nil] at hapart
    rw [List.flatMap_cons, Reassembly.yields_append]
    rcases h.next hcut hnew hapart with ⟨hcrowds, err, herr⟩ | ⟨hroom, hfine, hnext⟩
    · refine ⟨fun _ => ⟨[], z, xs, rfl, ?_⟩, fun _ => ⟨err, List.mem_append_left _ herr⟩⟩
      rwa [List.append_nil]
    · rw [List.append_cons] at distinct
      have hrest := ih hnext (fun x hx => cut x (List.mem_cons_of_mem _ hx)) distinct fun k y t heq => by
        have := apart (z :: k) y t (congrArg (z :: ·) heq)
        rwa [List.append_cons] at this
      constructor
      · rintro ⟨err, herr⟩
        rcases List.mem_append.mp herr with herr | herr
        · exact absurd herr (hfine err)
        · obtain ⟨k, y, t, rfl, hy⟩ := hrest.mp ⟨err, herr⟩
          exact ⟨z :: k, y, t, rfl, by rwa [List.append_cons]⟩
      · rintro ⟨k, y, t, heq, hy⟩
        cases k with
        | nil =>
          obtain ⟨rfl, -⟩ := List.cons.inj heq
          rw [List.append_nil] at hy
          exact absurd hy hroom
        | cons w k =>
          obtain ⟨rfl, hxs⟩ := List.cons.inj heq
          rw [List.append_cons] at hy
          obtain ⟨err, herr⟩ := hrest.mpr ⟨k, y, t, hxs, hy⟩
          exact ⟨err, List.mem_append_right _ herr⟩

end Mirrors

section Sent

variable {c : Connection} {ps : List (Threshold × Bytes)} {xs : List Crossing}

theorem posted_of_sent (sent : xs.map (·.packet) = c.sendAll 0 ps) {x : Crossing} (hx : x ∈ xs) :
    x.packet ∈ c.sendAll 0 ps := by
  rw [← sent]
  exact List.mem_map_of_mem hx

theorem nodup_of_sent (sent : xs.map (·.packet) = c.sendAll 0 ps) : xs.Nodup := by
  have hincreasing := c.sendAll_increasing 0 ps
  rw [← sent, List.pairwise_map] at hincreasing
  refine hincreasing.imp fun hlt heq => ?_
  rw [heq] at hlt
  exact Nat.lt_irrefl _ hlt

theorem Crossing.IsTorn.isLong {x : Crossing} (h : x.IsTorn) : x.packet.isLong = true := by
  have hpos : 0 < x.came.length := List.length_pos_iff.mpr h.1
  have hlt : x.came.length < x.packet.fragments.length :=
    Nat.lt_of_not_le fun hle => h.2 (x.sublist.eq_of_length_le hle)
  rw [Posted.isLong, decide_eq_true_iff]
  omega

/-- No split number comes again among as many packets of several parts as there are split numbers. -/
theorem apart_of_few (sent : xs.map (·.packet) = c.sendAll 0 ps)
    (few : ((c.sendAll 0 ps).filter Posted.isLong).length ≤ UInt16.size) : Apart xs := by
  rintro h z k rfl hbegins x hleft hsame
  have hx : x ∈ h ++ z :: k := List.mem_append_left _ hleft.mem
  have hz : z ∈ h ++ z :: k := by simp
  have htorn : x.IsTorn := by
    obtain ⟨-, -, -, htorn, -⟩ := hleft
    exact htorn
  have hpacket : x.packet = z.packet :=
    Connection.eq_of_split few (posted_of_sent sent hx) (posted_of_sent sent hz) htorn.isLong hbegins.1 hsame
  -- they are numbered in the order in which they are sent
  have hincreasing := c.sendAll_increasing 0 ps
  rw [← sent, List.map_append, List.pairwise_append] at hincreasing
  have hlt := hincreasing.2.2 _ (List.mem_map_of_mem hleft.mem) z.packet (by simp)
  rw [hpacket] at hlt
  exact Nat.lt_irrefl _ hlt

theorem Crowded.length (h : Crowded xs) : maxPendingSplits < xs.length := by
  obtain ⟨h, z, k, rfl, -, ys, hnodup, hlen, hleft⟩ := h
  have hle := hnodup.length_le_of_subset fun y hy => (hleft y hy).1.mem
  rw [List.length_append, List.length_cons]
  omega

end Sent

/-- Packets of two parts, one after another. -/
theorem sendAll_alike {u v : Bytes} (hu : u.length = 537) (hv : v ≠ []) (hle : v.length ≤ 537)
    (seq : UInt32) (split : UInt16) (number k : Nat) :
    (smallSender seq split).sendAll number (List.replicate k (none, u ++ v)) = (List.range k).map fun i =>
      ⟨number + i, u ++ v, fragmentsOf (seq + UInt32.ofNat i) (split + UInt16.ofNat i) [u, v]⟩ := by
  induction k generalizing seq split number with
  | zero => rfl
  | succ k ih =>
    have hnext (i : Nat) : seq + 1 + UInt32.ofNat i = seq + UInt32.ofNat (i + 1) ∧
        split + 1 + UInt16.ofNat i = split + UInt16.ofNat (i + 1) ∧ number + 1 + i = number + (i + 1) := by
      refine ⟨?_, ?_, by omega⟩
      · rw [UInt32.ofNat_add, UInt32.add_comm (UInt32.ofNat i), UInt32.add_assoc]
        rfl
      · rw [UInt16.ofNat_add, UInt16.add_comm (UInt16.ofNat i), UInt16.add_assoc]
        rfl
    rw [List.replicate_succ, sendAll_of_two hu hv hle, ih, List.range_succ_eq_map, List.map_cons,
      List.map_map]
    refine List.cons_eq_cons.mpr ⟨by simp, List.map_congr_left fun i _ => ?_⟩
    rw [Function.comp_apply, (hnext i).1, (hnext i).2.1, (hnext i).2.2]

set_option maxRecDepth 2000 in
theorem yields_of_last_parts : ({} : Reassembly).yields ((List.range (maxPendingSplits + 1)).map fun i =>
    ⟨UInt32.ofNat i, UInt16.ofNat i, 1, 2, [1]⟩) = [.error (.malformed .tooManySplits)] :=
  rfl

namespace Endpoint

variable {a : Address} {id : ConnectionId} {e : Endpoint}

/-- Over a link that only loses fragments, and on which no packet begins with the split number of one that
is incomplete, a fragment is an error if and only if a packet of several parts begins while too many are
incomplete. Otherwise no error is put into the inbox. -/
theorem fails_iff_crowded (he : e.Tends a id {}) (c : Connection) (ps : List (Threshold × Bytes))
    (h : List Turn) (xs : List Crossing) (sent : xs.map (·.packet) = c.sendAll 0 ps)
    (come : arrivals h = xs.flatMap (·.came)) (apart : Apart xs) :
    ((∃ err, .error err ∈ ({} : Reassembly).yields (arrivals h)) ↔ Crowded xs) ∧
      (¬ Crowded xs → ∀ err, .error err ∉ e.gains a id h) := by
  have cut : ∀ x ∈ xs, ∃ seq split parts, x.packet.Cut seq split parts := by
    intro x hx
    exact Connection.cut_of_mem (posted_of_sent sent hx)
  have hfails := Mirrors.start.fails_iff cut (nodup_of_sent sent) apart
  rw [← come] at hfails
  exact ⟨hfails, fun hroom err herr => hroom (hfails.mp ⟨err, he.mem_yields herr⟩)⟩

/-- Of the first packet only the last part comes, and the other two are whole. -/
theorem fails_iff_crowded_one :
    let e := (listen 0 defaultMtu).after [knock "a", .accept]
    let c := smallSender 0 0
    let u : Bytes := List.replicate 537 1
    let ps : List (Threshold × Bytes) := [(none, u ++ [2]), (none, u ++ [3]), (none, [4])]
    ∃ (xs : List Crossing) (h : List Turn), xs.map (·.came.length) = [1, 2, 1] ∧ e.Tends "a" ⟨1⟩ {} ∧
      xs.map (·.packet) = c.sendAll 0 ps ∧ arrivals h = xs.flatMap (·.came) ∧ Apart xs ∧ ¬ Crowded xs ∧
        ∀ err, .error err ∉ e.gains "a" ⟨1⟩ h := by
  intro e c u ps
  have he : e.Tends "a" ⟨1⟩ {} := ⟨rfl, ⟨_, rfl, rfl, rfl⟩, _, rfl⟩
  have hu : u.length = 537 := List.length_replicate
  let p : Posted := ⟨0, u ++ [2], fragmentsOf 0 0 [u, [2]]⟩
  let q : Posted := ⟨1, u ++ [3], fragmentsOf 1 1 [u, [3]]⟩
  let r : Posted := ⟨2, [4], fragmentsOf 2 0 [[4]]⟩
  let xs : List Crossing :=
    [⟨p, p.fragments.drop 1, List.drop_sublist 1 _⟩, ⟨q, _, .refl _⟩, ⟨r, _, .refl _⟩]
  have sent : xs.map (·.packet) = c.sendAll 0 ps := by
    have hsecond := sendAll_of_two hu (List.cons_ne_nil 3 []) (by decide) 1 1 1 [(none, [4])]
    have hfirst := sendAll_of_two hu (List.cons_ne_nil 2 []) (by decide) 0 0 0 ps.tail
    exact (hfirst.trans (congrArg (p :: ·) hsecond)).symm
  have few : ((c.sendAll 0 ps).filter Posted.isLong).length ≤ UInt16.size := by
    refine Nat.le_trans (List.length_filter_le _ _) ?_
    rw [← sent]
    decide
  have apart : Apart xs := apart_of_few sent few
  have hroom : ¬ Crowded xs := fun hxs => absurd hxs.length (by decide)
  have come : arrivals (eagerly (xs.flatMap (·.came))) = xs.flatMap (·.came) := arrivals_eagerly _
  exact ⟨xs, _, rfl, he, sent, come, apart, hroom, (fails_iff_crowded he c ps _ xs sent come apart).2 hroom⟩

/-- As many packets as may be incomplete have lost their first part, and so has the next one. -/
theorem torn_packets_fail :
    let e := (listen 0 defaultMtu).after [knock "a", .accept]
    let c := smallSender 0 0
    ∃ (ps : List (Threshold × Bytes)) (xs : List Crossing) (h : List Turn),
      xs.map (·.packet) = c.sendAll 0 ps ∧ arrivals h = xs.flatMap (·.came) ∧
        .error (.malformed .tooManySplits) ∈ e.gains "a" ⟨1⟩ h := by
  intro e c
  have he : e.Tends "a" ⟨1⟩ {} := ⟨rfl, ⟨_, rfl, rfl, rfl⟩, _, rfl⟩
  obtain ⟨u, hu⟩ : ∃ u : Bytes, u.length = 537 := ⟨List.replicate 537 0, List.length_replicate⟩
  let ps : List (Threshold × Bytes) := List.replicate (maxPendingSplits + 1) (none, u ++ [1])
  let xs : List Crossing :=
    (c.sendAll 0 ps).map fun p => ⟨p, p.fragments.drop 1, List.drop_sublist 1 p.fragments⟩
  have hcame : xs.flatMap (·.came) = (List.range (maxPendingSplits + 1)).map fun i =>
      ⟨UInt32.ofNat i, UInt16.ofNat i, 1, 2, [1]⟩ := by
    have hsend := sendAll_alike hu (List.cons_ne_nil 1 []) (by decide) 0 0 0 (maxPendingSplits + 1)
    have hxs : xs.flatMap (·.came) = (c.sendAll 0 ps).flatMap fun p => p.fragments.drop 1 := by
      simp [xs, List.flatMap_map]
    have hlast (i : Nat) : (fragmentsOf (0 + UInt32.ofNat i) (0 + UInt16.ofNat i) [u, [1]]).drop 1 =
        [⟨UInt32.ofNat i, UInt16.ofNat i, 1, 2, [1]⟩] := by
      rw [UInt32.zero_add, UInt16.zero_add]
      rfl
    rw [hxs, hsend, List.flatMap_map, List.map_eq_flatMap]
    exact congrArg (List.flatMap · _) (funext hlast)
  have room : e.Drained "a" ⟨1⟩ (eagerly (xs.flatMap (·.came))) := he.drained_eagerly rfl _
  refine ⟨ps, xs, eagerly (xs.flatMap (·.came)), by simp [xs, Function.comp_def], arrivals_eagerly _, ?_⟩
  rw [he.gains_of_drained room, arrivals_eagerly, hcame]
  rw [yields_of_last_parts]
  exact List.mem_singleton_self _

end Endpoint
end Datagram
end EditionGateway
