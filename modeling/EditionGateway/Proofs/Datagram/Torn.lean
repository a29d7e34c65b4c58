import EditionGateway.Proofs.Datagram.Reassembly

/-!
What becomes of a packet when some of its fragments are lost and the others come in order. The first of
them drops what is stale and makes room for the packet, if there is any; `after_some` says what is left
when the last one has come.
-/

namespace EditionGateway
namespace Datagram

/-- `k` parts of a packet have come, and there is a free place for each of these fragments. -/
structure Split.Lacks (s : Split) (seq : UInt32) (count k : Nat) (fs : List Fragment) : Prop where
  seq : s.seq = seq
  length : s.parts.length = count
  received : s.received = k
  free : ∀ f ∈ fs, s.parts[f.index.toNat]? = some none

namespace Split.Lacks

variable {s : Split} {seq : UInt32} {count k : Nat} {f : Fragment} {fs : List Fragment}

theorem empty (seq : UInt32) {count : Nat} (h : ∀ f ∈ fs, f.index.toNat < count) :
    (Split.empty seq count).Lacks seq count 0 fs := by
  refine ⟨rfl, List.length_replicate, rfl, fun f hf => ?_⟩
  rw [Split.empty, List.getElem?_replicate, if_pos (h f hf)]

theorem fill (h : s.Lacks seq count k (f :: fs)) (others : ∀ g ∈ fs, f.index ≠ g.index) :
    (s.fill f.index.toNat f.payload).Lacks seq count (k + 1) fs := by
  unfold Split.fill
  rw [h.free f List.mem_cons_self]
  refine ⟨h.seq, (List.length_set ..).trans h.length, congrArg (· + 1) h.received, fun g hg => ?_⟩
  have hne : f.index.toNat ≠ g.index.toNat := fun heq => others g hg (UInt16.toNat_inj.mp heq)
  rw [List.getElem?_set_ne hne]
  exact h.free g (List.mem_cons_of_mem _ hg)

end Split.Lacks

/-- Each fragment is a part of the packet, and no two are the same part. -/
structure AreParts (fs : List Fragment) (seq : UInt32) (split : UInt16) (parts : List Bytes) : Prop where
  part : ∀ f ∈ fs, f.IsPart seq split parts f.index.toNat
  distinct : fs.Pairwise (·.index ≠ ·.index)

namespace AreParts

variable {p : Posted} {seq : UInt32} {split : UInt16} {parts : List Bytes} {f : Fragment}
  {fs gs : List Fragment}

theorem of_cut (h : p.Cut seq split parts) : AreParts p.fragments seq split parts := by
  refine ⟨fun f hf => ?_, List.pairwise_iff_getElem.mpr fun i j hi hj hlt heq => ?_⟩
  · obtain ⟨i, hi⟩ := List.mem_iff_getElem?.mp hf
    have hpart := h.isPart hi
    rwa [← hpart.index] at hpart
  · have hindex := congrArg UInt16.toNat heq
    rw [(h.isPart (List.getElem?_eq_getElem hi)).index, (h.isPart (List.getElem?_eq_getElem hj)).index] at hindex
    omega

theorem sublist (h : AreParts fs seq split parts) (hgs : gs.Sublist fs) : AreParts gs seq split parts :=
  ⟨fun f hf => h.part f (hgs.subset hf), h.distinct.sublist hgs⟩

theorem head (h : AreParts (f :: fs) seq split parts) :
    f.IsPart seq split parts f.index.toNat ∧ ∀ g ∈ fs, f.index ≠ g.index :=
  ⟨h.part f List.mem_cons_self, (List.pairwise_cons.mp h.distinct).1⟩

theorem tail (h : AreParts (f :: fs) seq split parts) : AreParts fs seq split parts :=
  h.sublist (List.sublist_cons_self f fs)

end AreParts

namespace Reassembly

variable {seq : UInt32} {split : UInt16} {parts : List Bytes} {f : Fragment} {fs : List Fragment}
  {s : Split} {k : Nat} {base : Table UInt16 Split}

/-- A part is put in its free place. It may be the last one. -/
theorem join_free (r : Reassembly) (hpart : f.IsPart seq split parts f.index.toNat)
    (hs : s.Lacks seq parts.length k (f :: fs)) (others : ∀ g ∈ fs, f.index ≠ g.index) :
    ∃ s' : Split, s'.Lacks seq parts.length (k + 1) fs ∧
      r.join f s = if k + 1 < parts.length then (.ok none, { r with splits := r.splits.insert split s' })
        else (.ok (some (seq, s'.body)), { r with splits := r.splits.erase split }) := by
  have hfill := hs.fill others
  refine ⟨_, hfill, ?_⟩
  rw [join, hpart.count, hpart.split, if_neg (not_not_intro hs.length)]
  dsimp only
  rw [hfill.received, hfill.seq]

/-- The parts that come after the first one. -/
theorem after_rest (hparts : AreParts fs seq split parts) (hlong : 1 < parts.length)
    (habsent : base.get? split = none) (hs : s.Lacks seq parts.length k fs) (hk : k < parts.length)
    (hfew : k + fs.length ≤ parts.length) (last : Option UInt32) :
    (∀ err, .error err ∉ (⟨base ++ [(split, s)], last⟩ : Reassembly).yields fs) ∧
      if k + fs.length = parts.length then
        (⟨base ++ [(split, s)], last⟩ : Reassembly).after fs =
          ⟨base, if last.all (· < seq) then some seq else last⟩
      else ∃ s' : Split, s'.seq = seq ∧
        (⟨base ++ [(split, s)], last⟩ : Reassembly).after fs = ⟨base ++ [(split, s')], last⟩ := by
  induction fs generalizing s k with
  | nil =>
    rw [List.length_nil, Nat.add_zero, if_neg (Nat.ne_of_lt hk)]
    exact ⟨nofun, s, hs.seq, rfl⟩
  | cons f fs ih =>
    obtain ⟨hpart, others⟩ := hparts.head
    obtain ⟨s', hs', hjoin⟩ := join_free ⟨base ++ [(split, s)], last⟩ hpart hs others
    have hmeets : (base ++ [(split, s)]).get? split = some s := by
      rw [Table.get?_append, habsent, Table.get?_cons, if_pos rfl]
      rfl
    have haccept := accept_part ⟨base ++ [(split, s)], last⟩ hpart hlong
    rw [hmeets] at haccept
    dsimp only at haccept
    rw [hjoin, Table.insert, Table.erase_concat, Table.erase_of_absent habsent] at haccept
    rw [List.length_cons] at hfew ⊢
    rw [after_cons, yields]
    by_cases hmore : k + 1 < parts.length
    · rw [if_pos hmore] at haccept
      have hfeed : (⟨base ++ [(split, s)], last⟩ : Reassembly).feed f =
          (none, ⟨base ++ [(split, s')], last⟩) := by
        rw [feed, haccept]
      rw [hfeed]
      have hrest := ih hparts.tail hs' hmore (by omega)
      rwa [show k + 1 + fs.length = k + (fs.length + 1) by omega] at hrest
    · rw [if_neg hmore] at haccept
      obtain rfl : fs = [] := List.length_eq_zero_iff.mp (by omega)
      have hall : k + (([] : List Fragment).length + 1) = parts.length := by
        rw [List.length_nil] at hfew ⊢
        omega
      rw [if_pos hall, feed_of_complete haccept]
      refine ⟨?_, rfl⟩
      dsimp only
      split <;> simp [yields]

variable {p : Posted}

/-- A packet of one fragment makes no difference to those that are incomplete. -/
theorem after_single (r : Reassembly) (hcut : p.Cut seq split parts) (hone : parts.length = 1) :
    (∀ err, .error err ∉ r.yields p.fragments) ∧ r.after p.fragments =
      ⟨r.splits, if r.lastDelivered.all (· < seq) then some seq else r.lastDelivered⟩ := by
  obtain ⟨f, hf⟩ := List.length_eq_one_iff.mp (hcut.length_fragments.trans hone)
  have hpart := hcut.isPart (f := f) (i := 0) (by rw [hf]; rfl)
  rw [hf, after_cons, after_nil, yields, yields, feed_of_complete (accept_whole r hpart hone)]
  refine ⟨?_, rfl⟩
  dsimp only
  split <;> simp

/-- What is left when the last of its fragments has come: nothing of a packet that is complete, but an
incomplete one under its number otherwise. If there was no room for it, it is an error. -/
theorem after_some (r : Reassembly) (hcut : p.Cut seq split parts) (hlong : 1 < parts.length)
    (hnew : r.splits.get? split = none) (hfs : fs.Sublist p.fragments) (hne : fs ≠ []) :
    if maxPendingSplits ≤ (r.evictStale seq).splits.length then
      .error (.malformed .tooManySplits) ∈ r.yields fs
    else (∀ err, .error err ∉ r.yields fs) ∧
      if fs = p.fragments then
        r.after fs = ⟨(r.evictStale seq).splits,
          if r.lastDelivered.all (· < seq) then some seq else r.lastDelivered⟩
      else ∃ s : Split, s.seq = seq ∧
        r.after fs = ⟨(r.evictStale seq).splits ++ [(split, s)], r.lastDelivered⟩ := by
  cases fs with
  | nil => exact absurd rfl hne
  | cons f fs =>
    have hparts : AreParts (f :: fs) seq split parts := (AreParts.of_cut hcut).sublist hfs
    obtain ⟨hpart, others⟩ := hparts.head
    have haccept := accept_part r hpart hlong
    rw [hnew] at haccept
    dsimp only at haccept
    split
    · next hfull =>
      rw [if_pos hfull] at haccept
      rw [yields, feed, haccept]
      exact List.mem_cons_self
    · next hroom =>
      rw [if_neg hroom] at haccept
      have hempty : (Split.empty seq parts.length).Lacks seq parts.length 0 (f :: fs) :=
        .empty seq fun g hg => (hparts.part g hg).lt
      obtain ⟨s, hs, hjoin⟩ := join_free (r.evictStale seq) hpart hempty others
      have habsent := evictStale_absent seq hnew
      rw [hjoin, if_pos (by omega), Table.insert, Table.erase_of_absent habsent] at haccept
      have hfeed : r.feed f = (none, ⟨(r.evictStale seq).splits ++ [(split, s)], r.lastDelivered⟩) := by
        rw [feed, haccept]
        rfl
      have hlength := hfs.length_le
      rw [hcut.length_fragments, List.length_cons] at hlength
      -- all parts have come if as many have come as there are
      have hall : 1 + fs.length = parts.length ↔ f :: fs = p.fragments := by
        rw [← hcut.length_fragments, Nat.add_comm, ← List.length_cons]
        exact ⟨fun heq => hfs.eq_of_length heq, fun heq => by rw [heq]⟩
      have hrest := after_rest hparts.tail hlong habsent hs hlong (by omega) r.lastDelivered
      simp only [hall] at hrest
      rw [after_cons, yields, hfeed]
      exact hrest

end Reassembly
end Datagram
end EditionGateway
