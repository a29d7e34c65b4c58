import EditionGateway.Proofs.Datagram.Hearing
import EditionGateway.Proofs.Datagram.Mingling
import EditionGateway.Proofs.Datagram.Torn
import Mathlib.Data.List.Pairwise
import Mathlib.Data.List.Perm.Subperm

/-!
A link that loses nothing, but may mix the fragments of several packets in any way and repeat them. As long
as nothing becomes stale, what is kept of an incomplete packet is exactly what has come of it (`Gathers`),
and each packet is complete with the last of its fragments (`reassembled_in_any_order`).
-/

namespace EditionGateway
namespace Datagram

namespace Posted

variable {x y : Posted} {c : Connection} {f : Fragment} {h : List Fragment} {seq : UInt32} {split : UInt16}
  {parts : List Bytes} {i : Nat}

/-- A connection has sent the packet, in several fragments. -/
def IsCutBy (x : Posted) (c : Connection) : Prop :=
  x.isLong = true ∧ ∃ p, (c.send p).1 = .ok x.fragments ∧
    x.body = encodeBody c.compression c.threshold p

theorem IsCutBy.cut (hx : x.IsCutBy c) : ∃ parts, x.Cut x.seq x.split parts ∧ 1 < parts.length := by
  obtain ⟨hlong, p, hsend, hbody⟩ := hx
  obtain ⟨err, d, herr, -⟩ | ⟨parts, hparts, hflat, hpos, hfew, -⟩ := c.send_cases p
  · rw [herr] at hsend
    cases hsend
  · rw [hparts] at hsend
    have hcut : x.Cut c.nextSeq _ parts := ⟨(Except.ok.inj hsend).symm, hflat.trans hbody.symm, hpos, hfew⟩
    rw [hcut.isLong, decide_eq_true_iff] at hlong
    refine ⟨parts, ?_, hlong⟩
    rw [hcut.seq_eq, hcut.split_eq]
    exact hcut

theorem IsCutBy.length_encode (hx : x.IsCutBy c) (hmtu : minMtu ≤ c.mtu) (hf : f ∈ x.fragments) :
    f.encode.length ≤ c.mtu.toNat - networkOverhead := by
  obtain ⟨-, p, hsend, -⟩ := hx
  have hpayload := Connection.length_payload_of_send hsend hf
  have hmin : 576 ≤ c.mtu.toNat := hmtu
  rw [Fragment.length_encode, headerLength, networkOverhead]
  rw [Connection.maxPayload, headerLength, networkOverhead] at hpayload
  omega

def isBegun (x : Posted) (h : List Fragment) : Bool := x.fragments.any fun f => decide (f ∈ h)

/-- All of its fragments are among these. -/
def isWhole (x : Posted) (h : List Fragment) : Bool := x.fragments.all fun f => decide (f ∈ h)

def IsPending (x : Posted) (h : List Fragment) : Prop := x.isBegun h = true ∧ x.isWhole h = false

/-- Its parts, those that are not in these fragments left out. -/
def partly (x : Posted) (h : List Fragment) : Split :=
  let parts := x.fragments.map fun f => if f ∈ h then some f.payload else none
  ⟨x.seq, parts, parts.countP Option.isSome⟩

theorem length_partly (x : Posted) (h : List Fragment) :
    (x.partly h).parts.length = x.fragments.length :=
  List.length_map ..

theorem isCounted_partly (x : Posted) (h : List Fragment) : (x.partly h).IsCounted := rfl

theorem partly_of_not_begun (hx : x.isBegun h = false) :
    x.partly h = .empty x.seq x.fragments.length := by
  have hnone : ∀ f ∈ x.fragments, (if f ∈ h then some f.payload else none) = none := by
    intro f hf
    rw [if_neg]
    simpa using List.any_eq_false.mp hx f hf
  have hparts : (x.partly h).parts = List.replicate x.fragments.length none := by
    rw [partly, List.map_congr_left hnone, List.map_const']
  have hcount : (x.partly h).received = 0 := by
    rw [isCounted_partly, hparts, List.countP_replicate]
    rfl
  rw [Split.empty, ← hparts, ← hcount]
  rfl

/-- Another fragment fills its place. -/
theorem partly_concat (hcut : x.Cut seq split parts) (hi : x.fragments[i]? = some f) :
    (x.partly h).fill i f.payload = x.partly (h ++ [f]) := by
  have hdistinct := (AreParts.of_cut hcut).distinct
  have hother {j : Nat} {g : Fragment} (hj : x.fragments[j]? = some g) (hne : j ≠ i) : g ≠ f := by
    rintro rfl
    have hindex := (hcut.isPart hj).index
    rw [(hcut.isPart hi).index] at hindex
    exact hne hindex.symm
  have hparts : ((x.partly h).fill i f.payload).parts = (x.partly (h ++ [f])).parts := by
    -- a part that has come before is kept, and it is the same: no other fragment has its place
    apply List.ext_getElem?
    intro j
    rw [Split.getElem?_fill]
    simp only [partly, List.getElem?_map, List.mem_append, List.mem_singleton]
    rw [hi]
    by_cases hj : j = i
    · rw [hj, hi]
      by_cases hf : f ∈ h <;> simp [hf]
    · rw [if_neg fun h => hj h.1]
      cases hg : x.fragments[j]? with
      | none => rfl
      | some g => simp [hother hg hj]
  have hcounted : ((x.partly h).fill i f.payload).IsCounted := (x.isCounted_partly h).fill
  have hreceived : ((x.partly h).fill i f.payload).received = (x.partly (h ++ [f])).received := by
    rw [hcounted, hparts]
    rfl
  have hseq : ((x.partly h).fill i f.payload).seq = x.seq := Split.seq_fill
  calc (x.partly h).fill i f.payload
    _ = ⟨((x.partly h).fill i f.payload).seq, ((x.partly h).fill i f.payload).parts,
          ((x.partly h).fill i f.payload).received⟩ := rfl
    _ = x.partly (h ++ [f]) := by
      rw [hseq, hparts, hreceived]
      rfl

theorem isWhole_iff (x : Posted) (h : List Fragment) :
    x.isWhole h = true ↔ x.fragments.length ≤ (x.partly h).received := by
  have hlength := x.length_partly h
  have hsome {f : Fragment} : (if f ∈ h then some f.payload else none).isSome = true ↔ f ∈ h := by
    split <;> simp_all
  have hall : (x.partly h).received = (x.partly h).parts.length ↔ ∀ f ∈ x.fragments, f ∈ h := by
    rw [isCounted_partly, List.countP_eq_length]
    simp only [partly, List.forall_mem_map, hsome]
  have hle : (x.partly h).received ≤ (x.partly h).parts.length := List.countP_le_length
  rw [isWhole, List.all_eq_true]
  simp only [decide_eq_true_iff]
  rw [← hall, hlength]
  omega

theorem body_partly (hcut : x.Cut seq split parts) (whole : x.isWhole h = true) :
    (x.partly h).body = x.body := by
  have hall : ∀ f ∈ x.fragments, (if f ∈ h then some f.payload else none).getD [] = f.payload := by
    intro f hf
    rw [if_pos (by simpa using List.all_eq_true.mp whole f hf)]
    rfl
  have hparts := hcut.parts_eq
  rw [Posted.parts] at hparts
  rw [Split.body, partly, List.flatMap_map, List.flatMap_def, List.map_congr_left hall, hparts, hcut.body]

theorem isWhole_mono (hx : x.isWhole h = true) (fs : List Fragment) : x.isWhole (h ++ fs) = true := by
  rw [isWhole, List.all_eq_true] at hx ⊢
  intro f hf
  simpa using .inl (by simpa using hx f hf)

section Other

variable (hf : f ∉ x.fragments)
include hf

/-- Fragments of other packets do not count. -/
theorem mem_concat_iff {g : Fragment} (hg : g ∈ x.fragments) : g ∈ h ++ [f] ↔ g ∈ h := by
  have hne : g ≠ f := fun heq => hf (heq ▸ hg)
  simp [hne]

theorem isBegun_concat : x.isBegun (h ++ [f]) = x.isBegun h := by
  rw [Bool.eq_iff_iff, isBegun, isBegun, List.any_eq_true, List.any_eq_true]
  simp only [decide_eq_true_iff]
  exact exists_congr fun g => and_congr_right fun hg => mem_concat_iff hf hg

theorem isWhole_concat : x.isWhole (h ++ [f]) = x.isWhole h := by
  rw [Bool.eq_iff_iff, isWhole, isWhole, List.all_eq_true, List.all_eq_true]
  simp only [decide_eq_true_iff]
  exact forall₂_congr fun g hg => mem_concat_iff hf hg

theorem isPending_concat : x.IsPending (h ++ [f]) ↔ x.IsPending h := by
  rw [IsPending, isBegun_concat hf, isWhole_concat hf, IsPending]

theorem partly_other : x.partly (h ++ [f]) = x.partly h := by
  have hsame : ∀ g ∈ x.fragments, (if g ∈ h ++ [f] then some g.payload else none) =
      if g ∈ h then some g.payload else none := by
    intro g hg
    simp only [mem_concat_iff hf hg]
  rw [partly, List.map_congr_left hsame, partly]

end Other

end Posted

/-- Packets whose fragments may come in any order: they are not too many, they can be told apart, and none
of them is stale, whichever comes first. -/
structure Recent (xs : List Posted) (last : Option UInt32) : Prop where
  cut : ∀ x ∈ xs, ∃ parts, x.Cut x.seq x.split parts ∧ 1 < parts.length
  few : xs.length ≤ maxPendingSplits
  apart : xs.Pairwise (·.split ≠ ·.split)
  near : ∀ x ∈ xs, ∀ y ∈ xs, x.seq.toNat - y.seq.toNat ≤ splitWindow
  later : ∀ x ∈ xs, ∀ n ∈ last, n < x.seq

/-- After the fragments `h` of these packets, exactly those are incomplete of which some fragments have come
but not all, with what has come of them. -/
structure Gathers (xs : List Posted) (h : List Fragment) (r : Reassembly) : Prop where
  recent : Recent xs r.lastDelivered
  keys : r.splits.keys.Nodup
  pending : ∀ n s, (n, s) ∈ r.splits ↔ ∃ x ∈ xs, x.IsPending h ∧ n = x.split ∧ s = x.partly h

namespace Recent

variable {xs : List Posted} {last : Option UInt32} {x y : Posted} {f : Fragment}

theorem eq_of_split (hr : Recent xs last) (hx : x ∈ xs) (hy : y ∈ xs) (same : x.split = y.split) :
    x = y := by
  by_contra hne
  have symmetric : Std.Symm fun x y : Posted => x.split ≠ y.split := ⟨fun _ _ h => h.symm⟩
  exact hr.apart.forall hx hy hne same

/-- A fragment is part of one packet only. -/
theorem eq_of_mem (hr : Recent xs last) (hx : x ∈ xs) (hy : y ∈ xs) (hfx : f ∈ x.fragments)
    (hfy : f ∈ y.fragments) : x = y := by
  have split_eq {z : Posted} (hz : z ∈ xs) (hf : f ∈ z.fragments) : f.split = z.split := by
    obtain ⟨parts, hcut, -⟩ := hr.cut z hz
    obtain ⟨i, hi⟩ := List.mem_iff_getElem?.mp hf
    exact (hcut.isPart hi).split
  exact hr.eq_of_split hx hy ((split_eq hx hfx).symm.trans (split_eq hy hfy))

theorem nodup (hr : Recent xs last) : xs.Nodup :=
  hr.apart.imp fun hne heq => hne (congrArg Posted.split heq)

/-- Of the packets that become whole, one may do so with the next fragment, the others do later. -/
theorem perm_becoming (hr : Recent xs last) (hx : x ∈ xs) (hf : f ∈ x.fragments) {h : List Fragment}
    (missing : x.isWhole h = false) (fs : List Fragment) :
    ((if x.isWhole (h ++ [f]) then [x] else []) ++
        xs.filter fun y => y.isWhole (h ++ f :: fs) && !y.isWhole (h ++ [f])).Perm
      (xs.filter fun y => y.isWhole (h ++ f :: fs) && !y.isWhole h) := by
  -- `f` is part of `x` alone, so nothing else becomes whole with it
  have hother {y : Posted} (hy : y ∈ xs) (hne : y ≠ x) : y.isWhole (h ++ [f]) = y.isWhole h :=
    Posted.isWhole_concat fun hfy => hne (hr.eq_of_mem hy hx hfy hf)
  by_cases all : x.isWhole (h ++ [f]) = true
  · have later : x.isWhole (h ++ f :: fs) = true := by
      have hmono := Posted.isWhole_mono all fs
      rwa [List.append_assoc] at hmono
    have hnodup : (x :: xs.filter fun y => y.isWhole (h ++ f :: fs) && !y.isWhole (h ++ [f])).Nodup :=
      List.nodup_cons.mpr ⟨by simp [all], hr.nodup.filter _⟩
    rw [if_pos all]
    apply (List.perm_ext_iff_of_nodup hnodup (hr.nodup.filter _)).mpr
    intro y
    by_cases hyx : y = x
    · simp [hyx, hx, later, missing]
    · simp only [List.mem_cons, hyx, false_or, List.mem_filter]
      exact and_congr_right fun hy => by rw [hother hy hyx]
  · rw [if_neg all, List.nil_append]
    apply List.Perm.of_eq
    apply List.filter_congr
    intro y hy
    by_cases hyx : y = x
    · simp [hyx, all, missing]
    · rw [hother hy hyx]

end Recent

namespace Gathers

variable {xs : List Posted} {h fs : List Fragment} {r : Reassembly} {x y : Posted} {f : Fragment}

theorem start (hr : Recent xs r.lastDelivered) (idle : r.splits = []) : Gathers xs [] r := by
  refine ⟨hr, idle ▸ List.nodup_nil, fun n s => ?_⟩
  rw [idle]
  constructor
  · intro hs
    cases hs
  · rintro ⟨x, -, ⟨hbegun, -⟩, -⟩
    simp [Posted.isBegun] at hbegun

/-- None of the incomplete packets is stale. -/
theorem evictStale_eq (hg : Gathers xs h r) (hx : x ∈ xs) : r.evictStale x.seq = r := by
  have hfresh : ∀ e ∈ r.splits, r.isStale x.seq e.2 = false := by
    rintro ⟨n, s⟩ hs
    obtain ⟨y, hy, -, -, rfl⟩ := (hg.pending n s).mp hs
    have hnear := hg.recent.near x hx y hy
    have hwindow : decide (splitWindow < x.seq.toNat - (y.partly h).seq.toNat) = false :=
      decide_eq_false (Nat.not_lt.mpr hnear)
    rw [Reassembly.isStale, hwindow, Bool.or_false]
    cases hlast : r.lastDelivered with
    | none => rfl
    | some n => exact decide_eq_false (UInt32.not_le.mpr (hg.recent.later y hy n hlast))
  rw [Reassembly.evictStale, List.filter_eq_self.mpr]
  intro e he
  simp [hfresh e he]

/-- There is room for a packet that has not begun. -/
theorem room (hg : Gathers xs h r) (hx : x ∈ xs) (absent : r.splits.get? x.split = none) :
    r.splits.length < maxPendingSplits := by
  have hnew : x.split ∉ r.splits.keys := by
    intro hmem
    obtain ⟨s, hs⟩ := (Table.mem_keys_iff _ _).mp hmem
    rw [absent] at hs
    cases hs
  -- the incomplete packets and `x` are different packets of `xs`, so they are not too many
  have hsub : x.split :: r.splits.keys ⊆ xs.map Posted.split := by
    intro n hn
    rcases List.mem_cons.mp hn with rfl | hn
    · exact List.mem_map_of_mem hx
    · obtain ⟨⟨n, s⟩, hs, rfl⟩ := List.mem_map.mp hn
      obtain ⟨y, hy, -, rfl, -⟩ := (hg.pending n s).mp hs
      exact List.mem_map_of_mem hy
  have hlength := (List.subperm_of_subset (List.nodup_cons.mpr ⟨hnew, hg.keys⟩) hsub).length_le
  rw [List.length_cons, List.length_map, Table.keys, List.length_map] at hlength
  exact Nat.lt_of_lt_of_le hlength hg.recent.few

/-- Begun or not, the fragment is put to what has come of its packet. -/
theorem accept_eq (hg : Gathers xs h r) (hx : x ∈ xs) (hf : f ∈ x.fragments)
    (missing : x.isWhole h = false) : r.accept f = r.join f (x.partly h) := by
  obtain ⟨parts, hcut, hlong⟩ := hg.recent.cut x hx
  obtain ⟨i, hi⟩ := List.mem_iff_getElem?.mp hf
  rw [Reassembly.accept_part r (hcut.isPart hi) hlong]
  cases hs : r.splits.get? x.split with
  | some s =>
    obtain ⟨y, hy, -, hsplit, rfl⟩ := (hg.pending _ s).mp (Table.mem_of_get? hs)
    rw [hg.recent.eq_of_split hx hy hsplit]
  | none =>
    have hbegun : x.isBegun h = false := by
      by_contra hbegun
      have hmem := (hg.pending x.split _).mpr ⟨x, hx, ⟨by simpa using hbegun, missing⟩, rfl, rfl⟩
      have hkey := (Table.mem_keys_iff _ _).mp (List.mem_map_of_mem (f := Prod.fst) hmem)
      rw [hs] at hkey
      obtain ⟨s, hs⟩ := hkey
      cases hs
    dsimp only
    rw [hg.evictStale_eq hx, if_neg (Nat.not_le.mpr (hg.room hx hs)), Posted.partly_of_not_begun hbegun,
      hcut.length_fragments]

/-- The other packets are as they were. -/
theorem mem_erase (hg : Gathers xs h r) (hx : x ∈ xs) (hf : f ∈ x.fragments) (n : UInt16) (s : Split) :
    (n, s) ∈ r.splits.erase x.split ↔
      ∃ y ∈ xs, y ≠ x ∧ y.IsPending (h ++ [f]) ∧ n = y.split ∧ s = y.partly (h ++ [f]) := by
  have hother {y : Posted} (hy : y ∈ xs) (hne : y ≠ x) : f ∉ y.fragments :=
    fun hfy => hne (hg.recent.eq_of_mem hy hx hfy hf)
  rw [Table.erase, List.mem_filter, decide_eq_true_iff, hg.pending]
  constructor
  · rintro ⟨⟨y, hy, hpending, rfl, rfl⟩, hsplit⟩
    have hne : y ≠ x := fun heq => hsplit (heq ▸ rfl)
    refine ⟨y, hy, hne, (Posted.isPending_concat (hother hy hne)).mpr hpending, rfl, ?_⟩
    rw [Posted.partly_other (hother hy hne)]
  · rintro ⟨y, hy, hne, hpending, rfl, rfl⟩
    refine ⟨⟨y, hy, (Posted.isPending_concat (hother hy hne)).mp hpending, rfl, ?_⟩, ?_⟩
    · rw [Posted.partly_other (hother hy hne)]
    · exact fun hsplit => hne (hg.recent.eq_of_split hy hx hsplit)

/-- With a fragment of a packet that is not whole yet, nothing fails; if it is the last one that was
missing, it brings the packet. -/
theorem next (hg : Gathers xs h r) (hx : x ∈ xs) (hf : f ∈ x.fragments) (missing : x.isWhole h = false) :
    (r.accept f).1 = .ok (if x.isWhole (h ++ [f]) then some (x.seq, x.body) else none) ∧
      Gathers xs (h ++ [f]) (r.accept f).2 := by
  obtain ⟨parts, hcut, hlong⟩ := hg.recent.cut x hx
  obtain ⟨i, hi⟩ := List.mem_iff_getElem?.mp hf
  have hpart := hcut.isPart hi
  have hlength : (x.partly h).parts.length = f.count.toNat := by
    rw [x.length_partly, hcut.length_fragments, hpart.count]
  have hbegun : x.isBegun (h ++ [f]) = true := by
    rw [Posted.isBegun, List.any_eq_true]
    exact ⟨f, hf, by simp⟩
  have hwhole := x.isWhole_iff (h ++ [f])
  rw [hcut.length_fragments, ← hpart.count] at hwhole
  rw [hg.accept_eq hx hf missing, Reassembly.join, if_neg (not_not_intro hlength), hpart.index, hpart.split,
    Posted.partly_concat hcut hi]
  dsimp only
  by_cases all : x.isWhole (h ++ [f]) = true
  · have hnot := Nat.not_lt.mpr (hwhole.mp all)
    rw [if_neg hnot, if_pos all, Posted.body_partly hcut all]
    refine ⟨rfl, hg.recent, Table.nodup_keys_erase hg.keys _, fun n s => ?_⟩
    rw [hg.mem_erase hx hf]
    constructor
    · rintro ⟨y, hy, -, hpending, hn, hs⟩
      exact ⟨y, hy, hpending, hn, hs⟩
    · rintro ⟨y, hy, hpending, hn, hs⟩
      refine ⟨y, hy, ?_, hpending, hn, hs⟩
      rintro rfl
      rw [hpending.2] at all
      cases all
  · have hlt : (x.partly (h ++ [f])).received < f.count.toNat :=
      Nat.lt_of_not_le fun hle => all (hwhole.mpr hle)
    rw [if_pos hlt, if_neg all]
    refine ⟨rfl, hg.recent, Table.nodup_keys_insert hg.keys _ _, fun n s => ?_⟩
    rw [Table.insert, List.mem_append, List.mem_singleton, hg.mem_erase hx hf]
    constructor
    · rintro (⟨y, hy, -, hpending, hn, hs⟩ | heq)
      · exact ⟨y, hy, hpending, hn, hs⟩
      · obtain ⟨rfl, rfl⟩ := Prod.mk.inj heq
        exact ⟨x, hx, ⟨hbegun, by simpa using all⟩, rfl, rfl⟩
    · rintro ⟨y, hy, hpending, rfl, rfl⟩
      by_cases hyx : y = x
      · exact .inr (hyx ▸ rfl)
      · exact .inl ⟨y, hy, hyx, hpending, rfl, rfl⟩

end Gathers

namespace Reassembly

/-- What comes of byte strings, one after another. -/
def outcomes (r : Reassembly) : List Bytes → List (Except LinkError (Option (UInt32 × Bytes)))
  | [] => []
  | b :: bs => (r.acceptBytes b).1 :: (r.acceptBytes b).2.outcomes bs

/-- What is kept after they have come. -/
def kept (r : Reassembly) (bs : List Bytes) : Reassembly := bs.foldl (fun r b => (r.acceptBytes b).2) r

end Reassembly

/-- The datagrams of fragments, without their marks. -/
def datagrams (fs : List Fragment) : List Bytes := fs.map (·.encode.tail)

/-- After the fragments `h`, only fragments of these packets come, and none of a packet that is whole. -/
structure Mixes (xs : List Posted) (h fs : List Fragment) : Prop where
  genuine : ∀ f ∈ fs, ∃ x ∈ xs, f ∈ x.fragments
  missing : ∀ k f t, fs = k ++ f :: t → ∀ x ∈ xs, f ∈ x.fragments → x.isWhole (h ++ k) = false

theorem Mixes.tail {xs : List Posted} {h fs : List Fragment} {f : Fragment} (hm : Mixes xs h (f :: fs)) :
    Mixes xs (h ++ [f]) fs := by
  refine ⟨fun g hg => hm.genuine g (List.mem_cons_of_mem _ hg), fun k g t heq x hx hgx => ?_⟩
  rw [List.append_assoc]
  exact hm.missing (f :: k) g t (heq ▸ rfl) x hx hgx

namespace Gathers

variable {xs : List Posted} {h fs : List Fragment} {r : Reassembly}

theorem acceptBytes (hg : Gathers xs h r) {x : Posted} (hx : x ∈ xs) {f : Fragment} (hf : f ∈ x.fragments)
    (missing : x.isWhole h = false) :
    (r.acceptBytes f.encode.tail).1 =
        .ok (if x.isWhole (h ++ [f]) then some (x.seq, x.body) else none) ∧
      Gathers xs (h ++ [f]) (r.acceptBytes f.encode.tail).2 := by
  obtain ⟨hresult, hnext⟩ := hg.next hx hf missing
  rw [Reassembly.acceptBytes, f.eval_encode]
  dsimp only
  rw [hresult]
  exact ⟨rfl, hnext⟩

theorem kept (hg : Gathers xs h r) (hm : Mixes xs h fs) : Gathers xs (h ++ fs) (r.kept (datagrams fs)) := by
  induction fs generalizing h r with
  | nil => rwa [List.append_nil]
  | cons f fs ih =>
    obtain ⟨x, hx, hf⟩ := hm.genuine f List.mem_cons_self
    have missing := hm.missing [] f fs rfl x hx hf
    rw [List.append_nil] at missing
    have hrest := ih (hg.acceptBytes hx hf missing).2 hm.tail
    rwa [List.append_assoc] at hrest

theorem outcomes (hg : Gathers xs h r) (hm : Mixes xs h fs) {k t : List Fragment} {f : Fragment}
    (heq : fs = k ++ f :: t) {x : Posted} (hx : x ∈ xs) (hf : f ∈ x.fragments) :
    (r.outcomes (datagrams fs))[k.length]? =
      some (.ok (if x.isWhole (h ++ k ++ [f]) then some (x.seq, x.body) else none)) := by
  subst heq
  -- what has come before `f` moves over to `h`, one fragment at a time
  induction k generalizing h r with
  | nil =>
    have missing := hm.missing [] f t rfl x hx hf
    rw [List.append_nil] at missing ⊢
    exact congrArg some (hg.acceptBytes hx hf missing).1
  | cons g k ih =>
    obtain ⟨y, hy, hgy⟩ := hm.genuine g List.mem_cons_self
    have missing := hm.missing [] g _ rfl y hy hgy
    rw [List.append_nil] at missing
    have hrest := ih (hg.acceptBytes hy hgy missing).2 hm.tail
    rw [List.append_assoc h] at hrest
    exact hrest

/-- The packets that become whole. -/
theorem perm_outcomes (hg : Gathers xs h r) (hm : Mixes xs h fs) :
    ((r.outcomes (datagrams fs)).filterMap (·.toOption.join)).Perm
      ((xs.filter fun x => x.isWhole (h ++ fs) && !x.isWhole h).map fun x => (x.seq, x.body)) := by
  induction fs generalizing h r with
  | nil =>
    have hnone : (xs.filter fun x => x.isWhole (h ++ []) && !x.isWhole h) = [] := by simp
    rw [hnone]
    exact .nil
  | cons f fs ih =>
    obtain ⟨x, hx, hf⟩ := hm.genuine f List.mem_cons_self
    have missing := hm.missing [] f fs rfl x hx hf
    rw [List.append_nil] at missing
    obtain ⟨hresult, hnext⟩ := hg.acceptBytes hx hf missing
    have hrest := ih hnext hm.tail
    rw [List.append_assoc] at hrest
    have hparts := hg.recent.perm_becoming hx hf missing fs
    rw [datagrams, List.map_cons, Reassembly.outcomes, List.filterMap_cons, hresult]
    refine List.Perm.trans ?_ (hparts.map _)
    rw [List.map_append]
    by_cases all : x.isWhole (h ++ [f]) = true
    · rw [if_pos all, if_pos all]
      exact hrest.cons _
    · rw [if_neg all, if_neg all]
      exact hrest

end Gathers

/-- The fragments of at most `maxPendingSplits` packets, none of them stale whichever comes first, may come in
any order and more than once. Each packet is complete with the last of its fragments, once and unchanged,
nothing fails, and nothing is left. Every datagram fits what the network carries. -/
theorem reassembled_in_any_order {xs : List Posted} {fs : List Fragment} {r : Reassembly}
    (sent : ∀ x ∈ xs, ∃ c, minMtu ≤ c.mtu ∧ x.IsCutBy c) (few : xs.length ≤ maxPendingSplits)
    (apart : xs.Pairwise (·.split ≠ ·.split))
    (near : ∀ x ∈ xs, ∀ y ∈ xs, x.seq.toNat - y.seq.toNat ≤ splitWindow)
    (later : ∀ x ∈ xs, ∀ n ∈ r.lastDelivered, n < x.seq) (idle : r.splits = [])
    (mixes : Mixes xs [] fs) (all : ∀ x ∈ xs, x.isWhole fs = true) :
    (∀ h f t, fs = h ++ f :: t → ∀ x ∈ xs, f ∈ x.fragments →
      (r.outcomes (datagrams fs))[h.length]? =
        some (.ok (if x.isWhole (h ++ [f]) then some (x.seq, x.body) else none))) ∧
    ((r.outcomes (datagrams fs)).filterMap (·.toOption.join)).Perm (xs.map fun x => (x.seq, x.body)) ∧
    (r.kept (datagrams fs)).splits = [] ∧
    ∀ x ∈ xs, ∀ c, minMtu ≤ c.mtu → x.IsCutBy c →
      ∀ f ∈ x.fragments, f.encode.length ≤ c.mtu.toNat - networkOverhead := by
  have cut : ∀ x ∈ xs, ∃ parts, x.Cut x.seq x.split parts ∧ 1 < parts.length := by
    intro x hx
    obtain ⟨c, -, hc⟩ := sent x hx
    exact hc.cut
  have start : Gathers xs [] r := .start ⟨cut, few, apart, near, later⟩ idle
  refine ⟨fun h f t heq x hx hf => ?_, ?_, ?_, fun x _ c hmtu hc f hf => hc.length_encode hmtu hf⟩
  · exact start.outcomes mixes heq hx hf
  · have hperm := start.perm_outcomes mixes
    rw [List.filter_eq_self.mpr] at hperm
    · exact hperm
    · intro x hx
      obtain ⟨c, -, hc⟩ := sent x hx
      obtain ⟨parts, hcut, -⟩ := hc.cut
      obtain ⟨f, t, hf⟩ := List.exists_cons_of_ne_nil hcut.fragments_ne_nil
      have whole : x.isWhole ([] ++ fs) = true := all x hx
      rw [whole, Bool.true_and]
      simp [Posted.isWhole, hf]
  · have hend := start.kept mixes
    apply List.eq_nil_iff_forall_not_mem.mpr
    rintro ⟨n, s⟩ hs
    obtain ⟨x, hx, ⟨-, missing⟩, -⟩ := (hend.pending n s).mp hs
    rw [List.nil_append, all x hx] at missing
    cases missing

/-- The fragments of two packets in turn, the last part of the first one twice. -/
theorem reassembled_in_any_order_two :
    let u : Bytes := List.replicate 537 1
    let x : Posted := ⟨0, u ++ [2], fragmentsOf 0 0xffff [u, [2]]⟩
    let y : Posted := ⟨1, u ++ [3], fragmentsOf 1 0 [u, [3]]⟩
    let fs : List Fragment := [⟨0, 0xffff, 1, 2, [2]⟩, ⟨1, 0, 0, 2, u⟩, ⟨0, 0xffff, 1, 2, [2]⟩,
      ⟨0, 0xffff, 0, 2, u⟩, ⟨1, 0, 1, 2, [3]⟩]
    x.IsCutBy (smallSender 0 0xffff) ∧ y.IsCutBy (smallSender 1 0) ∧ Mixes [x, y] [] fs ∧
      (({} : Reassembly).outcomes (datagrams fs))[3]? = some (.ok (some (0, u ++ [2]))) ∧
      (({} : Reassembly).outcomes (datagrams fs))[4]? = some (.ok (some (1, u ++ [3]))) ∧
      (({} : Reassembly).kept (datagrams fs)).splits = [] := by
  intro u x y fs
  have hu : u.length = 537 := List.length_replicate
  have hx : x.IsCutBy (smallSender 0 0xffff) :=
    ⟨rfl, u ++ [2], congrArg Prod.fst (send_of_two hu (List.cons_ne_nil 2 []) (by decide) 0 0xffff), rfl⟩
  have hy : y.IsCutBy (smallSender 1 0) :=
    ⟨rfl, u ++ [3], congrArg Prod.fst (send_of_two hu (List.cons_ne_nil 3 []) (by decide) 1 0), rfl⟩
  have sent : ∀ z ∈ [x, y], ∃ c, minMtu ≤ c.mtu ∧ z.IsCutBy c :=
    List.forall_mem_cons.mpr
      ⟨⟨_, UInt16.le_refl _, hx⟩, List.forall_mem_singleton.mpr ⟨_, UInt16.le_refl _, hy⟩⟩
  have missing : ∀ i, (hi : i < fs.length) → ∀ z ∈ [x, y], fs[i] ∈ z.fragments →
      z.isWhole (fs.take i) = false := by decide +kernel
  have mixes : Mixes [x, y] [] fs := by
    -- a way to cut the list at `f` is a position in it
    refine ⟨by decide +kernel, fun k f t heq z hz hf => ?_⟩
    have hk : fs[k.length]? = some f := by simp [heq]
    have htake : fs.take k.length = k := by rw [heq, List.take_left]
    obtain ⟨hlt, rfl⟩ := List.getElem?_eq_some_iff.mp hk
    have hmissing := missing k.length hlt z hz hf
    rwa [htake] at hmissing
  have all : ∀ z ∈ [x, y], z.isWhole fs = true := by decide +kernel
  obtain ⟨hresults, -, hend, -⟩ := reassembled_in_any_order (r := {}) sent (by decide) (by decide) (by decide)
    nofun rfl mixes all
  have hthird := hresults (fs.take 3) _ (fs.drop 4) rfl x List.mem_cons_self (by decide +kernel)
  have hfourth := hresults (fs.take 4) _ [] rfl y (List.mem_cons_of_mem _ List.mem_cons_self) (by decide +kernel)
  rw [if_pos (by decide +kernel)] at hthird hfourth
  exact ⟨hx, hy, mixes, hthird, hfourth, hend⟩

end Datagram
end EditionGateway
