import EditionGateway.Proofs.Datagram.Receiving
import EditionGateway.Proofs.Datagram.Sending

/-!
A link that loses nothing and keeps the order. Packets are put into the inbox one by one as they have
been sent, until the sequence numbers are used up; `later_packets_lost` shows that none comes after that.
-/

namespace EditionGateway
namespace Datagram

/-- A packet of which the first parts have come. -/
def Split.upTo (seq : UInt32) (parts : List Bytes) (i : Nat) : Split :=
  ⟨seq, (parts.take i).map some ++ List.replicate (parts.length - i) none, i⟩

namespace Split

variable {seq : UInt32} {parts : List Bytes} {i : Nat}

theorem length_upTo (hi : i ≤ parts.length) : (upTo seq parts i).parts.length = parts.length := by
  simp [upTo]
  omega

theorem fill_upTo {b : Bytes} (hb : parts[i]? = some b) :
    (upTo seq parts i).fill i b = upTo seq parts (i + 1) := by
  obtain ⟨hlt, -⟩ := List.getElem?_eq_some_iff.mp hb
  have hlen : ((parts.take i).map some).length = i := by
    rw [List.length_map, List.length_take, Nat.min_eq_left (Nat.le_of_lt hlt)]
  have hrest : List.replicate (parts.length - i) (none : Option Bytes) =
      none :: List.replicate (parts.length - (i + 1)) none := by
    rw [← List.replicate_succ]
    exact congrArg (List.replicate · none) (by omega)
  have htake : (parts.take (i + 1)).map some = (parts.take i).map some ++ [some b] := by
    rw [List.take_add_one, hb, List.map_append]
    rfl
  have hget : (upTo seq parts i).parts[i]? = some none := by
    rw [upTo, hrest, List.getElem?_append_right (by omega), hlen, Nat.sub_self]
    rfl
  have hset : (upTo seq parts i).parts.set i (some b) = (upTo seq parts (i + 1)).parts := by
    rw [upTo, upTo, hrest, htake, List.set_append_right _ _ (by omega), hlen, Nat.sub_self,
      List.append_assoc]
    rfl
  rw [fill, hget]
  dsimp only
  rw [hset]
  rfl

theorem body_upTo : (upTo seq parts parts.length).body = parts.flatten := by
  simp [body, upTo, List.flatMap_def, Function.comp_def]

end Split

namespace Reassembly

/-- Only one packet is incomplete, and its first parts have come. -/
def expecting (last : Option UInt32) (seq : UInt32) (split : UInt16) (parts : List Bytes) (i : Nat) :
    Reassembly :=
  ⟨if i = 0 then [] else [(split, .upTo seq parts i)], last⟩

variable {last : Option UInt32} {seq : UInt32} {split : UInt16} {parts : List Bytes} {i : Nat}
  {f : Fragment}

/-- The next part meets those that have come before it. -/
theorem accept_next (h : f.IsPart seq split parts i) (hlong : 1 < parts.length) :
    (expecting last seq split parts i).accept f =
      (expecting last seq split parts i).join f (.upTo seq parts i) := by
  rw [accept_part _ h hlong]
  by_cases hi : i = 0
  · subst hi
    rfl
  · have hget : (expecting last seq split parts i).splits.get? split = some (.upTo seq parts i) := by
      rw [expecting, if_neg hi, Table.get?_cons, if_pos rfl]
    rw [hget]

/-- They are complete with the last part, and wait for more otherwise. -/
theorem join_next (h : f.IsPart seq split parts i) :
    (expecting last seq split parts i).join f (.upTo seq parts i) =
      if i + 1 < parts.length then (.ok none, expecting last seq split parts (i + 1))
      else (.ok (some (seq, parts.flatten)), ⟨[], last⟩) := by
  have hlt := h.lt
  have herase : (expecting last seq split parts i).splits.erase split = [] := by
    by_cases hi : i = 0
    · rw [expecting, if_pos hi]
      rfl
    · rw [expecting, if_neg hi, Table.erase, List.filter_cons_of_neg (by simp)]
      rfl
  have hinsert : (expecting last seq split parts i).splits.insert split (.upTo seq parts (i + 1)) =
      [(split, .upTo seq parts (i + 1))] := by
    rw [Table.insert, herase]
    rfl
  have hfill : (Split.upTo seq parts i).fill f.index.toNat f.payload = .upTo seq parts (i + 1) := by
    rw [h.index]
    exact Split.fill_upTo h.payload
  have hlen : (Split.upTo seq parts i).parts.length = f.count.toNat := by
    rw [h.count]
    exact Split.length_upTo (Nat.le_of_lt hlt)
  rw [join, if_neg (not_not_intro hlen), hfill, h.count, h.split]
  by_cases hmore : i + 1 < parts.length
  · rw [if_pos hmore]
    refine (if_pos hmore).trans ?_
    rw [hinsert]
    rfl
  · have hall : i + 1 = parts.length := by omega
    rw [if_neg hmore]
    refine (if_neg hmore).trans ?_
    rw [herase, hall, Split.body_upTo]
    rfl

variable {p : Posted}

/-- The next part of a packet makes it wait for more. The last one makes it be put into the inbox, if it
is later than the last packet. -/
theorem feed_next (last : Option UInt32) (hcut : p.Cut seq split parts) (hi : p.fragments[i]? = some f) :
    (expecting last seq split parts i).feed f =
      if i + 1 < parts.length then (none, expecting last seq split parts (i + 1))
      else (if last.all (· < seq) then some (.ok p.body) else none,
        ⟨[], if last.all (· < seq) then some seq else last⟩) := by
  have hpart := hcut.isPart hi
  have hlt := hpart.lt
  by_cases hmore : i + 1 < parts.length
  · rw [if_pos hmore, feed, accept_next hpart (by omega), join_next hpart, if_pos hmore]
  · have hcomplete : (expecting last seq split parts i).accept f =
        (.ok (some (seq, p.body)), ⟨[], last⟩) := by
      rw [← hcut.body]
      by_cases hone : parts.length = 1
      · obtain rfl : i = 0 := by omega
        exact accept_whole _ hpart hone
      · rw [accept_next hpart (by omega), join_next hpart, if_neg hmore]
    rw [if_neg hmore, feed_of_complete hcomplete]

/-- As long as its last part has not come, a packet waits. -/
theorem after_take (last : Option UInt32) (hcut : p.Cut seq split parts) (hi : i < parts.length) :
    (⟨[], last⟩ : Reassembly).after (p.fragments.take i) = expecting last seq split parts i ∧
      (⟨[], last⟩ : Reassembly).yields (p.fragments.take i) = [] := by
  induction i with
  | zero => exact ⟨rfl, rfl⟩
  | succ i ih =>
    obtain ⟨hafter, hyields⟩ := ih (Nat.lt_of_succ_lt hi)
    have hlt : i < p.fragments.length := by
      rw [hcut.length_fragments]
      omega
    have hfeed := feed_next last hcut (List.getElem?_eq_getElem hlt)
    rw [if_pos hi] at hfeed
    rw [List.take_succ_eq_append_getElem hlt, after_append, yields_append, hafter, hyields, after_cons,
      after_nil, yields, yields, hfeed]
    exact ⟨rfl, rfl⟩

/-- With its last part it is put into the inbox, if it is later than the last one. -/
theorem after_packet (hcut : p.Cut seq split parts) (last : Option UInt32) :
    (⟨[], last⟩ : Reassembly).after p.fragments = ⟨[], if last.all (· < seq) then some seq else last⟩ ∧
      (⟨[], last⟩ : Reassembly).yields p.fragments =
        if last.all (· < seq) then [.ok p.body] else [] := by
  obtain ⟨n, hn⟩ : ∃ n, parts.length = n + 1 := Nat.exists_eq_succ_of_ne_zero (Nat.ne_of_gt hcut.pos)
  have hlt : n < p.fragments.length := by
    rw [hcut.length_fragments]
    omega
  obtain ⟨hafter, hyields⟩ := after_take last hcut (by omega : n < parts.length)
  have hfragments : p.fragments = p.fragments.take n ++ [p.fragments[n]] := by
    rw [← List.take_succ_eq_append_getElem hlt, List.take_of_length_le]
    rw [hcut.length_fragments]
    omega
  have hfeed := feed_next last hcut (List.getElem?_eq_getElem hlt)
  rw [if_neg (by omega)] at hfeed
  rw [hfragments, after_append, yields_append, hafter, hyields, after_cons, after_nil, yields, yields,
    hfeed]
  refine ⟨rfl, ?_⟩
  dsimp only
  split <;> rfl

/-- The last packet that has been put into the inbox after `k` packets. -/
def lastAfter (k : Nat) : Option UInt32 :=
  if k = 0 then none else some (UInt32.ofNat (min k UInt32.size - 1))

theorem lastAfter_all (k : Nat) :
    (lastAfter k).all (· < UInt32.ofNat k) = decide (k < UInt32.size) := by
  by_cases hk : k = 0
  · subst hk
    rfl
  · have hsize : UInt32.size = 4294967296 := rfl
    have hlast : (UInt32.ofNat (min k UInt32.size - 1)).toNat = min k UInt32.size - 1 :=
      UInt32.toNat_ofNat_of_lt (by omega)
    have hseq : (UInt32.ofNat k).toNat = k % 4294967296 := UInt32.toNat_ofNat
    rw [lastAfter, if_neg hk, Option.all_some, decide_eq_decide, UInt32.lt_iff_toNat_lt, hlast, hseq]
    omega

theorem lastAfter_succ (k : Nat) :
    lastAfter (k + 1) = if k < UInt32.size then some (UInt32.ofNat k) else lastAfter k := by
  by_cases hk : k < UInt32.size
  · have hmin : min (k + 1) UInt32.size - 1 = k := by omega
    rw [if_pos hk, lastAfter, if_neg (Nat.succ_ne_zero k), hmin]
  · have hpos : 0 < UInt32.size := by decide
    have hmin : min (k + 1) UInt32.size - 1 = min k UInt32.size - 1 := by omega
    rw [if_neg hk, lastAfter, lastAfter, if_neg (Nat.succ_ne_zero k), if_neg (by omega), hmin]

/-- So the next packet counts, until all sequence numbers are used up. -/
theorem lastAfter_next (k : Nat) :
    (if (lastAfter k).all (· < UInt32.ofNat k) then some (UInt32.ofNat k) else lastAfter k) = lastAfter (k + 1) := by
  rw [lastAfter_all, lastAfter_succ]
  simp only [decide_eq_true_eq]

/-- Packets are put into the inbox one by one, until all sequence numbers are used up. -/
theorem yields_sendAll {c : Connection} {k number : Nat} {ps : List (Threshold × Bytes)}
    (hseq : c.nextSeq = UInt32.ofNat k) (all : (c.sendAll number ps).length = ps.length) :
    (⟨[], lastAfter k⟩ : Reassembly).yields ((c.sendAll number ps).flatMap (·.fragments)) =
      (ps.take (UInt32.size - k)).map fun (t, p) => .ok (encodeBody c.compression t.clamp p) := by
  induction ps generalizing c k number with
  | nil => simp [Connection.sendAll, yields]
  | cons tb ps ih =>
    obtain ⟨p, d, split, parts, heq, hcut, hbody, hnext, hsame, hall⟩ :=
      Connection.sendAll_cons_of_accepted all
    have hnext' : d.nextSeq = UInt32.ofNat (k + 1) := by
      rw [hnext, hseq, UInt32.ofNat_add]
      rfl
    obtain ⟨hafter, hyields⟩ := after_packet hcut (lastAfter k)
    rw [hseq, lastAfter_next] at hafter
    rw [hseq, lastAfter_all] at hyields
    simp only [decide_eq_true_eq] at hyields
    rw [heq, List.flatMap_cons, yields_append, hafter, hyields, ih hnext' hall, hsame]
    -- the first packet is put into the inbox, unless as many as there are numbers have been
    by_cases hk : k < UInt32.size
    · have hleft : UInt32.size - k = (UInt32.size - (k + 1)) + 1 := by omega
      rw [if_pos hk, hleft, List.take_succ_cons, List.map_cons, hbody]
      rfl
    · have hnone : UInt32.size - k = 0 := by omega
      have hnone' : UInt32.size - (k + 1) = 0 := by omega
      rw [if_neg hk, hnone, hnone']
      rfl

end Reassembly

namespace Endpoint

variable {a : Address} {id : ConnectionId} {e : Endpoint}

/-- Over a link that loses nothing, the packets are put into the inbox once each, in the order sent: all
of the first `2 ^ 32`, and none after them. -/
theorem puts_in_order (he : e.Tends a id {}) (c : Connection) (fresh : c.nextSeq = 0)
    (ps : List (Threshold × Bytes)) (all : (c.sendAll 0 ps).length = ps.length) (h : List Turn)
    (lossless : arrivals h = (c.sendAll 0 ps).flatMap (·.fragments)) (room : e.Drained a id h) :
    e.gains a id h = (ps.take UInt32.size).map fun (t, p) =>
      .ok (encodeBody c.compression t.clamp p) := by
  rw [he.gains_of_drained room, lossless]
  exact Reassembly.yields_sendAll (k := 0) fresh all

/-- One packet is sent as it is, one in two parts, and one with a mark in front of it. -/
theorem puts_in_order_three :
    let e := (listen 0 defaultMtu).after [knock "a", .accept]
    let c : Connection := { id := ⟨2⟩, address := "b", mtu := minMtu, nextSplit := 0xffff }
    let ps : List (Threshold × Bytes) :=
      [(none, [1]), (none, List.replicate 600 2), (some 10, [3])]
    let h := eagerly ((c.sendAll 0 ps).flatMap (·.fragments))
    e.Tends "a" ⟨1⟩ {} ∧ c.nextSeq = 0 ∧ (c.sendAll 0 ps).length = ps.length ∧
      arrivals h = (c.sendAll 0 ps).flatMap (·.fragments) ∧ e.Drained "a" ⟨1⟩ h ∧
      e.gains "a" ⟨1⟩ h = [.ok [1], .ok (List.replicate 600 2), .ok [0, 3]] := by
  intro e c ps h
  have he : e.Tends "a" ⟨1⟩ {} := ⟨rfl, ⟨_, rfl, rfl, rfl⟩, _, rfl⟩
  have hfits : ∀ x ∈ ps, (encodeBody c.compression x.1.clamp x.2).length ≤
      maxFragments * c.maxPayload := by
    decide +kernel
  have all : (c.sendAll 0 ps).length = ps.length :=
    Connection.length_sendAll rfl fun t b hb => hfits (t, b) hb
  have lossless : arrivals h = (c.sendAll 0 ps).flatMap (·.fragments) := arrivals_eagerly _
  have room : e.Drained "a" ⟨1⟩ h := he.drained_eagerly rfl _
  refine ⟨he, rfl, all, lossless, room, ?_⟩
  rw [puts_in_order he c rfl ps all h lossless room, List.take_of_length_le (by decide)]
  rfl

/-- Of `2 ^ 32 + 1` packets the last one is lost: it has the same sequence number as the first one. -/
theorem later_packets_lost :
    let e := (listen 0 defaultMtu).after [knock "a", .accept]
    let c : Connection := { id := ⟨2⟩, address := "b", mtu := minMtu, nextSplit := 0 }
    ∃ (ps : List (Threshold × Bytes)) (h : List Turn), (c.sendAll 0 ps).length = ps.length ∧
      arrivals h = (c.sendAll 0 ps).flatMap (·.fragments) ∧ e.Drained "a" ⟨1⟩ h ∧
      ps.length = UInt32.size + 1 ∧ (e.gains "a" ⟨1⟩ h).length = UInt32.size := by
  intro e c
  have he : e.Tends "a" ⟨1⟩ {} := ⟨rfl, ⟨_, rfl, rfl, rfl⟩, _, rfl⟩
  have hmany (n : Nat) : let ps := List.replicate n (none, [7])
      (c.sendAll 0 ps).length = ps.length := by
    refine Connection.length_sendAll rfl fun t b hb => ?_
    obtain ⟨-, hb⟩ := List.mem_replicate.mp hb
    obtain ⟨rfl, rfl⟩ := Prod.mk.inj hb
    decide
  have all := hmany (UInt32.size + 1)
  have room : e.Drained "a" ⟨1⟩ (eagerly _) :=
    he.drained_eagerly rfl ((c.sendAll 0 (List.replicate (UInt32.size + 1) (none, [7]))).flatMap (·.fragments))
  refine ⟨_, _, all, arrivals_eagerly _, room, List.length_replicate, ?_⟩
  have hyields := Reassembly.yields_sendAll (k := 0) (c := c) rfl all
  rw [he.gains_of_drained room, arrivals_eagerly]
  refine (congrArg List.length hyields).trans ?_
  rw [List.length_map, List.length_take, List.length_replicate]
  exact Nat.min_eq_left (by omega)

end Endpoint
end Datagram
end EditionGateway
